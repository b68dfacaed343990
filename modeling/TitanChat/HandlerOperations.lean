import TitanChat.HandlerReports

/-!
# What a handler stores

Of all that a handler does, two things last: the statements that it executes on the hot path, and
the records that it publishes to `chat-persist`. Which they are is decided by the event, and for a
transfer by the agent that is found. The rest of the handler decides how far it comes.

So a handler has a list of operations, and it performs a part of them, from the first one on.

## Main definitions

* `Op`, `Stored`, `Stored.perform`
* `Event.ops`: the operations of a handler
* `Performs`: a call does a part of some operations, and all of them when it returns

## Main results

* `performs_on`: the handlers and their operations
-/

namespace TitanChat

open WideColumn

namespace Handlers

/-- What a handler does to Cassandra and to `chat-persist`. -/
inductive Op where
  | execute (stmt : Statement Table)
  | publish (record : List (String × Json))

/-- The tables, and the records of `chat-persist` in the order of their publication. -/
structure Stored where
  db : Database Table
  records : List Json

/-- Perform an operation; `none` when the call raises. -/
def Stored.perform (s : Stored) : Op → Option Stored
  | .execute stmt => (s.db.execute schema stmt).map fun db => { s with db := db }
  | .publish record =>
    (Json.obj record).transit.map fun v => { s with records := s.records ++ [v] }

/-- What a world stores. -/
def stored (w : World) : Stored where
  db := w.db
  records := (w.published.filter fun m => m.topic = CHAT_PERSIST).map Message.payload

/-- The operations of `chat_start.handle`. -/
def chatStartOps (env : Env) (event : ChatStartEvent) : List Op :=
  .execute (insertConversation env event) ::
    ((if event.bot_id ≠ "" then [.execute (insertConversationByBot env event)] else []) ++
      [.publish (chatStartRecord event)])

/-- The operations of `transfer_to_agent.handle`, for the agent that was found. -/
def transferToAgentOps (event : TransferToAgentEvent) : Option String → List Op
  | some agent_id => [.execute (assignConversation event.conversation_id agent_id),
      .publish (assignmentRecord event agent_id)]
  | none => []

/-- The operations of a handler. -/
def Event.ops (env : Env) (agent_id : Option String) : Event → List Op
  | .chatStart event => chatStartOps env event
  | .transferToAgent event => transferToAgentOps event agent_id
  | e => [.publish e.record]

/-! ### Performing a part -/

/-- The call performs a part of the operations, and all of them when it returns. -/
def Performs {α : Type} (m : Act α) (ops : List Op) : Prop :=
  ∀ w, ∃ ps, ps <+: ops ∧ ps.foldlM Stored.perform (stored w) = some (stored (m.run w).2) ∧
    ((m.run w).1.isOk → ps = ops)

/-- Nothing is stored. -/
def SameStored (w w' : World) : Prop := stored w' = stored w

instance : Std.Refl SameStored := ⟨fun _ => rfl⟩

instance : IsTrans World SameStored := ⟨fun _ _ _ h h' => Eq.trans h' h⟩

section Rules

variable {α β : Type} {env : Env} {key : String} {ops ops' : List Op}

theorem performs_nil {m : Act α} (h : Effect.Keeps SameStored m) : Performs m [] :=
  fun w => ⟨[], List.prefix_refl _, congrArg some (h w).symm, fun _ => rfl⟩

theorem performs_bind {m : Act α} {f : α → Act β} (hm : Performs m ops)
    (hf : ∀ a, Performs (f a) ops') : Performs (m >>= f) (ops ++ ops') := by
  intro w
  obtain ⟨ps, hps, hrun, hok⟩ := hm w
  rw [Effect.run_bind]
  rcases hmw : m.run w with ⟨r, w'⟩
  rw [hmw] at hrun hok
  cases r with
  | error e => exact ⟨ps, hps.trans (List.prefix_append ..), hrun, by simp [Except.isOk,
      Except.toBool]⟩
  | ok a =>
    obtain rfl : ps = ops := hok rfl
    obtain ⟨ps', hps', hrun', hok'⟩ := hf a w'
    refine ⟨ps ++ ps', (List.prefix_append_right_inj ps).mpr hps', ?_, fun h => by rw [hok' h]⟩
    rw [List.foldlM_append, hrun]
    exact hrun'

theorem performs_dbExecute (c : Call) (stmt : Statement Table) :
    Performs (env.dbExecute c stmt) [.execute stmt] := by
  intro w
  have hperform : [Op.execute stmt].foldlM Stored.perform (stored w) =
      (w.db.execute schema stmt).map fun db => stored { w with db := db } := by
    simp only [List.foldlM_cons, List.foldlM_nil, Stored.perform, stored]
    cases w.db.execute schema stmt <;> rfl
  rw [Env.dbExecute, Env.call]
  cases env.outcome c with
  | refused => exact ⟨[], List.nil_prefix, rfl, by simp [Except.isOk, Except.toBool]⟩
  | done | unanswered =>
    cases hdb : w.db.execute schema stmt with
    | none =>
      simp only [hdb]
      exact ⟨[], List.nil_prefix, rfl, by simp [Except.isOk, Except.toBool]⟩
    | some db =>
      simp only [hdb]
      exact ⟨_, List.prefix_refl _, by rw [hperform, hdb]; rfl, fun _ => rfl⟩

theorem performs_publishMessage (record : List (String × Json)) :
    Performs (publishMessage CHAT_PERSIST key record) [.publish record] := by
  intro w
  cases hv : (Json.obj record).transit with
  | none =>
    simp only [publishMessage, hv]
    exact ⟨[], List.nil_prefix, rfl, by simp [Except.isOk, Except.toBool]⟩
  | some v =>
    simp only [publishMessage, hv]
    refine ⟨_, List.prefix_refl _, ?_, fun _ => rfl⟩
    simp [Stored.perform, stored, hv]

theorem sameStored_push (payload : List (String × Json)) :
    Effect.Keeps SameStored (push env key payload) :=
  keeps_push fun _ _ => rfl

theorem sameStored_chatMessageReceived :
    Effect.Keeps SameStored (chatMessageReceived env key) :=
  Env.keeps_track fun _ => rfl

/-- The delivered acks go to another topic. -/
theorem sameStored_publishMessage {topic : String} (htopic : topic ≠ CHAT_PERSIST)
    (payload : List (String × Json)) :
    Effect.Keeps SameStored (publishMessage topic key payload) := by
  intro w
  rw [publishMessage]
  cases (Json.obj payload).transit with
  | none => exact rfl
  | some v => simp [SameStored, stored, htopic]

/-- The record comes last. -/
theorem performs_publish_last {told : Act Unit} (h : Effect.Keeps SameStored told)
    (record : List (String × Json)) :
    Performs (told >>= fun _ => publishMessage CHAT_PERSIST key record) [.publish record] :=
  performs_bind (performs_nil h) fun _ => performs_publishMessage record

end Rules

/-! ### The handlers -/

section Handlers

variable {env : Env} {key : String}

theorem performs_onChatStart (event : ChatStartEvent) :
    Performs (onChatStart env key event) (chatStartOps env event) := by
  have hlast : Performs (do
      push env key [("event_type", .str "chat_started"),
        ("conversation_id", .str event.conversation_id), ("timestamp", .int event.timestamp)]
      publishMessage CHAT_PERSIST key (chatStartRecord event)) [.publish (chatStartRecord event)] :=
    performs_publish_last (sameStored_push _) _
  have honline : Performs (chatOnline env event.conversation_id event.user_id env.serverId
      event.bot_id) [] :=
    performs_nil (Env.keeps_track fun _ => rfl)
  have hopen : Performs (openChat env event) ([.execute (insertConversation env event)] ++
      if event.bot_id ≠ "" then [.execute (insertConversationByBot env event)] else []) := by
    refine performs_bind (performs_dbExecute .insertConversation _) fun _ => ?_
    by_cases hbot : event.bot_id ≠ ""
    · simp only [if_pos hbot]
      exact performs_bind (performs_dbExecute .insertConversationByBot _) fun _ => honline
    · simp only [if_neg hbot]
      exact honline
  exact performs_bind hopen fun _ => hlast

theorem performs_recordAssignment (event : TransferToAgentEvent) (a : String) :
    Performs (recordAssignment env key event a) (transferToAgentOps event (some a)) :=
  performs_bind (performs_dbExecute .updateConversation _) fun _ =>
    performs_bind (performs_nil (Env.keeps_track fun _ => rfl)) fun _ => performs_publishMessage _

/-- **A handler performs a part of its operations**, for some agent. -/
theorem performs_on (e : Event) (w : World) : ∃ agent_id ps, ps <+: e.ops env agent_id ∧
    ps.foldlM Stored.perform (stored w) = some (stored ((e.on env key).run w).2) := by
  have hpart {m : Act Unit} {ops : List Op} (h : Performs m ops) (w : World) : ∃ ps, ps <+: ops ∧
      ps.foldlM Stored.perform (stored w) = some (stored (m.run w).2) := by
    obtain ⟨ps, hps, hrun, -⟩ := h w
    exact ⟨ps, hps, hrun⟩
  cases e with
  | chatStart event => exact ⟨none, hpart (performs_onChatStart event) w⟩
  | incomingMessage event =>
    refine ⟨none, hpart (performs_publish_last (Effect.keeps_gather fun m hm => ?_) _) w⟩
    simp only [List.mem_cons, List.not_mem_nil, or_false] at hm
    obtain rfl | rfl | rfl := hm
    · exact sameStored_push _
    · exact sameStored_publishMessage (by decide) _
    · exact sameStored_chatMessageReceived
  | outgoingMessage event =>
    refine ⟨none, hpart (performs_publish_last (Effect.keeps_gather fun m hm => ?_) _) w⟩
    simp only [List.mem_cons, List.not_mem_nil, or_false] at hm
    obtain rfl | rfl := hm
    · exact sameStored_push _
    · exact sameStored_chatMessageReceived
  | chatEnd event =>
    have hclose : Performs (closeChat env event) [] :=
      performs_nil (Effect.keeps_bind (keeps_releaseAgentSlot fun _ _ => rfl) fun _ =>
        keeps_chatOffline fun _ _ => rfl)
    exact ⟨none, hpart (performs_bind hclose fun _ =>
      performs_publish_last (sameStored_push _) _) w⟩
  | ack event => exact ⟨none, hpart (performs_publish_last (sameStored_push _) _) w⟩
  | transferToAgent event =>
    have hroute : Effect.Keeps SameStored (routeToAgent env event.conversation_id) :=
      keeps_routeToAgent fun _ => rfl
    rcases hrun : (routeToAgent env event.conversation_id).run w with ⟨r, w'⟩
    have hsame : stored w' = stored w := hroute.of_run hrun
    cases r with
    | error err =>
      refine ⟨none, [], List.nil_prefix, ?_⟩
      rw [Event.on, onTransferToAgent, Effect.run_bind_of_error hrun, hsame]
      rfl
    | ok agent_id =>
      have hrun' : (onTransferToAgent env key event).run w = _ := Effect.run_bind_of_ok hrun
      rw [Event.on, hrun', ← hsame]
      cases agent_id with
      | none => exact ⟨none, hpart (performs_nil (sameStored_push _)) w'⟩
      | some a =>
        obtain ⟨ps, hps, hfold⟩ := hpart (performs_bind (performs_recordAssignment event a) fun _ =>
          performs_nil (sameStored_push _)) w'
        exact ⟨some a, ps, by rwa [List.append_nil] at hps, hfold⟩

end Handlers

end Handlers

end TitanChat
