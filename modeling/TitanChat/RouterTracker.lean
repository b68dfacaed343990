import TitanChat.Handlers
import TitanChat.Internal.Transition

/-!
# The router and the tracker

The agent of a conversation is stored twice, by the router in `chat:active` and by the tracker in
`online:chat`. Two processes write these keys: the handlers of the consumer, and the gateway when a
connection ends. The law is that the two name the same agent. The empty id is nobody.

The runs here are free of failures, and every operation is run to its end before the next one
begins. A transfer writes both stores and so does the end of a chat. A repeated `chat_start` and the
end of a connection only write the tracker, and break the law unless the router names nobody.

## Main definitions

* `disconnect`: the Redis half of `ConnectionManager.disconnect`
* `Step`, `perform`: the operations
* `Agrees`, `KeepsAgreement`: the law and its guard

## Main results

* `run_onChatStart`, `run_onTransferToAgent`, `run_onChatEnd`: what a handler does to the two stores
* `router_tracker_agree_iff`: the exact statement
-/

namespace TitanChat

namespace Handlers

/-- The Redis half of `ConnectionManager.disconnect`. -/
def disconnect (env : Env) (conversation_id : String) : Act Unit := do
  env.call .unregisterConnection (Effect.modify fun w =>
    { w with connections := Function.update w.connections conversation_id none })
  chatOffline env conversation_id

/-! ### What the handlers do to the two stores -/

/-- The router and the tracker are as before. -/
structure SameOwners (w w' : World) : Prop where
  router : w'.router = w.router
  tracker : w'.tracker = w.tracker

instance : Std.Refl SameOwners := ⟨fun _ => ⟨rfl, rfl⟩⟩

instance : IsTrans World SameOwners := ⟨fun _ _ _ h h' => ⟨h'.1.trans h.1, h'.2.trans h.2⟩⟩

variable {env : Env} {w w' : World} {key : String}

theorem sameOwners_dbExecute (c : Call) (stmt : WideColumn.Statement Table) :
    Effect.Keeps SameOwners (env.dbExecute c stmt) :=
  Env.keeps_dbExecute fun _ _ _ => ⟨rfl, rfl⟩

theorem sameOwners_publishMessage (topic : String) (payload : List (String × Json)) :
    Effect.Keeps SameOwners (publishMessage topic key payload) :=
  keeps_publishMessage fun _ _ => ⟨rfl, rfl⟩

theorem sameOwners_push (payload : List (String × Json)) :
    Effect.Keeps SameOwners (push env key payload) :=
  keeps_push fun _ _ => ⟨rfl, rfl⟩

theorem run_openChat {event : ChatStartEvent} (h : (openChat env event).run w = (.ok (), w')) :
    w'.router = w.router ∧ w'.tracker = w.tracker.chatOnline event.conversation_id event.user_id
      env.serverId event.bot_id env.now.micros := by
  obtain ⟨w₁, hdb, hrest⟩ := Effect.then_eq_ok.mp h
  have hsame := (sameOwners_dbExecute _ _).of_run hdb
  by_cases hbot : event.bot_id ≠ ""
  · simp only [if_pos hbot] at hrest
    obtain ⟨w₂, hdb', honline⟩ := Effect.then_eq_ok.mp hrest
    have hsame' : SameOwners w w₂ :=
      IsTrans.trans _ _ _ hsame ((sameOwners_dbExecute _ _).of_run hdb')
    obtain ⟨-, rfl⟩ := Env.track_eq_ok.mp honline
    exact ⟨hsame'.router, by rw [← hsame'.tracker]⟩
  · simp only [if_neg hbot] at hrest
    obtain ⟨-, rfl⟩ := Env.track_eq_ok.mp hrest
    exact ⟨hsame.router, by rw [← hsame.tracker]⟩

/-- **`chat_start`** writes the tracker only. -/
theorem run_onChatStart {event : ChatStartEvent}
    (h : (onChatStart env key event).run w = (.ok (), w')) :
    w'.router = w.router ∧ w'.tracker = w.tracker.chatOnline event.conversation_id event.user_id
      env.serverId event.bot_id env.now.micros := by
  obtain ⟨w₁, hopen, hrest⟩ := Effect.then_eq_ok.mp h
  have hsame : SameOwners w₁ w' := (Effect.keeps_bind (sameOwners_push _) fun _ =>
    sameOwners_publishMessage _ _).of_run hrest
  rw [hsame.router, hsame.tracker]
  exact run_openChat hopen

theorem run_releaseAgentSlot {c : String}
    (h : (releaseAgentSlot env c).run w = (.ok (), w')) :
    w'.router = w.router.releaseAgentSlot c ∧ w'.tracker = w.tracker := by
  obtain ⟨agent_id, w₁, hread, hrest⟩ := Effect.bind_eq_ok.mp h
  obtain ⟨-, hagent, rfl⟩ := Env.get_eq_ok.mp hread
  cases agent_id with
  | none =>
    rw [Effect.run_pure, Prod.mk.injEq] at hrest
    obtain ⟨-, rfl⟩ := hrest
    exact ⟨(Router.releaseAgentSlot_of_none hagent).symm, rfl⟩
  | some agent_id =>
    obtain ⟨-, rfl⟩ := Env.route_eq_ok.mp hrest
    exact ⟨(Router.releaseAgentSlot_of_some hagent).symm, rfl⟩

theorem run_chatOffline {c : String} (h : (chatOffline env c).run w = (.ok (), w')) :
    w'.router = w.router ∧ w'.tracker = w.tracker.chatOffline c := by
  obtain ⟨meta_, w₁, hread, hrest⟩ := Effect.bind_eq_ok.mp h
  obtain ⟨-, rfl, rfl⟩ := Env.get_eq_ok.mp hread
  rw [Tracker.chatOffline]
  by_cases hempty : (w.tracker.chat c).entries.isEmpty
  · rw [if_pos hempty, Effect.run_pure, Prod.mk.injEq] at hrest
    obtain ⟨-, rfl⟩ := hrest
    exact ⟨rfl, by rw [if_pos hempty]⟩
  · rw [if_neg hempty] at hrest
    obtain ⟨-, rfl⟩ := Env.track_eq_ok.mp hrest
    exact ⟨rfl, by rw [if_neg hempty]⟩

/-- **`chat_end`** writes both. -/
theorem run_onChatEnd {event : ChatEndEvent}
    (h : (onChatEnd env key event).run w = (.ok (), w')) :
    w'.router = w.router.releaseAgentSlot event.conversation_id ∧
      w'.tracker = w.tracker.chatOffline event.conversation_id := by
  obtain ⟨w₁, hclose, hrest⟩ := Effect.then_eq_ok.mp h
  obtain ⟨w₂, hrelease, hoffline⟩ := Effect.then_eq_ok.mp hclose
  have hsame : SameOwners w₁ w' := (Effect.keeps_bind (sameOwners_push _) fun _ =>
    sameOwners_publishMessage _ _).of_run hrest
  obtain ⟨hrouter, htracker⟩ := run_releaseAgentSlot hrelease
  obtain ⟨hrouter', htracker'⟩ := run_chatOffline hoffline
  rw [hsame.router, hsame.tracker, hrouter', htracker', hrouter, htracker]
  exact ⟨rfl, rfl⟩

/-- What `route_to_agent` returns, and who holds which conversation afterwards. -/
theorem run_routeToAgent {c : String} {agent_id : Option String}
    (h : (routeToAgent env c).run w = (.ok agent_id, w')) :
    agent_id = (w.router.leastLoaded env.find "").filter (· ≠ "") ∧
      w'.router = (w.router.routeLua env.find c "").2 ∧ w'.tracker = w.tracker := by
  obtain ⟨reply, w₁, hscript, hrest⟩ := Effect.bind_eq_ok.mp h
  have hpair : (Except.ok (w.router.routeLua env.find c "").1,
      { w with router := (w.router.routeLua env.find c "").2 }) = (Except.ok reply, w₁) :=
    (Env.call_eq_ok.mp hscript).2
  obtain ⟨hok, rfl⟩ := Prod.mk.inj hpair
  obtain rfl := Except.ok.inj hok
  obtain ⟨_, -, ⟨hleast, -, hnone⟩ | ⟨a, _, hleast, -, -, -, -, hr⟩⟩ :=
    w.router.routeLua_cases env.find c ""
  · rw [hleast]
    cases hreply : (w.router.routeLua env.find c "").1 with
    | assigned a => exact absurd hreply (hnone a)
    | nil =>
      simp only [hreply] at hrest
      obtain ⟨hagent, rfl⟩ := Prod.mk.inj hrest
      exact ⟨(Except.ok.inj hagent).symm, rfl, rfl⟩
    | error =>
      simp only [hreply] at hrest
      exact absurd (Prod.mk.inj hrest).1 (by simp)
  · simp only [hr] at hrest
    rw [hleast, hr]
    by_cases ha : a = ""
    · rw [if_pos ha] at hrest
      obtain ⟨hagent, rfl⟩ := Prod.mk.inj hrest
      exact ⟨by simp [Option.filter, ha, ← Except.ok.inj hagent], rfl, rfl⟩
    · rw [if_neg ha] at hrest
      obtain ⟨w₂, hfeed, hreturn⟩ := Effect.then_eq_ok.mp hrest
      obtain ⟨-, hfeed⟩ := Env.call_eq_ok.mp hfeed
      obtain ⟨-, rfl⟩ := Prod.mk.inj hfeed
      obtain ⟨hagent, rfl⟩ := Prod.mk.inj hreturn
      exact ⟨by simp [Option.filter, ha, ← Except.ok.inj hagent], rfl, rfl⟩

theorem run_recordAssignment {event : TransferToAgentEvent} {a : String}
    (h : (recordAssignment env key event a).run w = (.ok (), w')) :
    w'.router = w.router ∧ w'.tracker = w.tracker.chatAssigned event.conversation_id a := by
  obtain ⟨w₁, hdb, hrest⟩ := Effect.then_eq_ok.mp h
  obtain ⟨w₂, hassigned, hpublish⟩ := Effect.then_eq_ok.mp hrest
  obtain ⟨-, rfl⟩ := Env.track_eq_ok.mp hassigned
  have hdb := (sameOwners_dbExecute _ _).of_run hdb
  have hpublish := (sameOwners_publishMessage _ _).of_run hpublish
  rw [hpublish.router, hpublish.tracker]
  exact ⟨hdb.router, by rw [hdb.tracker]⟩

/-- **`transfer_to_agent`** writes both, unless the agent that it finds has the empty id. -/
theorem run_onTransferToAgent {event : TransferToAgentEvent}
    (h : (onTransferToAgent env key event).run w = (.ok (), w')) :
    w'.router = (w.router.routeLua env.find event.conversation_id "").2 ∧
      w'.tracker =
        match w.router.leastLoaded env.find "" with
        | none => w.tracker
        | some a =>
          if a = "" then w.tracker else w.tracker.chatAssigned event.conversation_id a := by
  obtain ⟨agent_id, w₁, hroute, hrest⟩ := Effect.bind_eq_ok.mp h
  obtain ⟨hagent, hrouter, htracker⟩ := run_routeToAgent hroute
  rw [← hrouter, ← htracker]
  have hpush (h : agent_id = none) : SameOwners w₁ w' := by
    subst h
    exact (sameOwners_push _).of_run hrest
  cases hleast : w.router.leastLoaded env.find "" with
  | none =>
    have hsame := hpush (by rw [hagent, hleast]; rfl)
    exact ⟨hsame.router, hsame.tracker⟩
  | some a =>
    rw [hleast] at hagent
    by_cases ha : a = ""
    · have hsame := hpush (by simp [hagent, Option.filter, ha])
      exact ⟨hsame.router, by rw [hsame.tracker]; exact (if_pos ha).symm⟩
    · obtain rfl : agent_id = some a := by simp [hagent, Option.filter, ha]
      obtain ⟨w₂, hrecord, hlast⟩ := Effect.then_eq_ok.mp hrest
      obtain ⟨hrouter', htracker'⟩ := run_recordAssignment hrecord
      have hsame := (sameOwners_push _).of_run hlast
      exact ⟨hsame.router.trans hrouter',
        hsame.tracker.trans (htracker'.trans (if_neg ha).symm)⟩

/-- An incoming or outgoing message changes no agent. -/
structure SameAgents (w w' : World) : Prop where
  router : w'.router = w.router
  shownAgent : w'.tracker.shownAgent = w.tracker.shownAgent

instance : Std.Refl SameAgents := ⟨fun _ => ⟨rfl, rfl⟩⟩

instance : IsTrans World SameAgents := ⟨fun _ _ _ h h' => ⟨h'.1.trans h.1, h'.2.trans h.2⟩⟩

theorem SameOwners.sameAgents (h : SameOwners w w') : SameAgents w w' :=
  ⟨h.router, by rw [h.tracker]⟩

theorem sameAgents_chatMessageReceived (c : String) :
    Effect.Keeps SameAgents (chatMessageReceived env c) :=
  Env.keeps_call (Effect.keeps_modify fun _ =>
    ⟨rfl, funext fun _ => Tracker.shownAgent_chatMessageReceived ..⟩)

theorem sameAgents_push (payload : List (String × Json)) :
    Effect.Keeps SameAgents (push env key payload) :=
  (sameOwners_push payload).mono fun _ _ => SameOwners.sameAgents

theorem sameAgents_publishMessage (topic : String) (payload : List (String × Json)) :
    Effect.Keeps SameAgents (publishMessage topic key payload) :=
  (sameOwners_publishMessage topic payload).mono fun _ _ => SameOwners.sameAgents

theorem sameAgents_onIncomingMessage (event : IncomingMessageEvent) :
    Effect.Keeps SameAgents (onIncomingMessage env key event) := by
  refine Effect.keeps_bind (Effect.keeps_gather fun m hm => ?_) fun _ =>
    sameAgents_publishMessage _ _
  simp only [List.mem_cons, List.not_mem_nil, or_false] at hm
  obtain rfl | rfl | rfl := hm
  · exact sameAgents_push _
  · exact sameAgents_publishMessage _ _
  · exact sameAgents_chatMessageReceived _

theorem sameAgents_onOutgoingMessage (event : OutgoingMessageEvent) :
    Effect.Keeps SameAgents (onOutgoingMessage env key event) := by
  refine Effect.keeps_bind (Effect.keeps_gather fun m hm => ?_) fun _ =>
    sameAgents_publishMessage _ _
  simp only [List.mem_cons, List.not_mem_nil, or_false] at hm
  obtain rfl | rfl := hm
  · exact sameAgents_push _
  · exact sameAgents_chatMessageReceived _

theorem sameAgents_onAck (event : AckEvent) : Effect.Keeps SameAgents (onAck env key event) :=
  Effect.keeps_bind (sameAgents_push _) fun _ => sameAgents_publishMessage _ _

/-! ### The law -/

/-- **The law.** The router names an agent for a conversation exactly when the tracker shows it. -/
def Agrees (w : World) : Prop :=
  ∀ c a, a ≠ "" → (w.router.holder c = some a ↔ w.tracker.shownAgent c = some a)

/-- Whom the two stores name, if anybody. -/
def Named (w : World) (c : String) : Prop :=
  w.router.releaseRead c = (w.tracker.shownAgent c).filter (· ≠ "")

theorem agrees_iff_named : Agrees w ↔ ∀ c, Named w c := by
  constructor
  · intro h c
    refine Option.ext fun a => ?_
    rw [Router.releaseRead_eq_some, Option.filter_eq_some_iff, decide_eq_true_eq, and_comm]
    exact and_congr_left fun ha => h c a ha
  · intro h c a ha
    have hsome := congrArg (· = some a) (h c)
    simpa [Router.releaseRead_eq_some, Option.filter_eq_some_iff, ha] using hsome

/-- A step that touches one conversation keeps the law if the stores agree about that one. -/
theorem agrees_iff_of_update (h : Agrees w) {c : String}
    (hrouter : ∀ d, d ≠ c → w'.router.releaseRead d = w.router.releaseRead d)
    (htracker : ∀ d, d ≠ c → w'.tracker.shownAgent d = w.tracker.shownAgent d) :
    Agrees w' ↔ Named w' c := by
  rw [agrees_iff_named] at h ⊢
  refine ⟨fun h' => h' c, fun h' d => ?_⟩
  by_cases hd : d = c
  · exact hd ▸ h'
  · rw [Named, hrouter d hd, htracker d hd]
    exact h d

theorem SameAgents.agrees (hs : SameAgents w w') (h : Agrees w) : Agrees w' := by
  intro c a ha
  rw [hs.router, hs.shownAgent]
  exact h c a ha

/-! ### Runs -/

/-- One operation. -/
inductive Operation where
  /-- An event is handled, at a time. -/
  | handle (k : EventType) (now : DateTime) (conversation_id : String) (raw : Dict Json)
  /-- The connection of a conversation ends. -/
  | disconnect (conversation_id : String)
  | agentGoOnline (agent_id : String) (max_chats : ℤ) (skills : List String)
  | agentHeartbeat (agent_id : String)
  | expireStatus (agent_id : String)
  | agentGoOffline (agent_id : String)

/-- Every call is done. -/
def failureFree (env : Env) (now : DateTime) : Env :=
  { env with now := now, outcome := fun _ => .done }

/-- The state after a run that has ended well. -/
def finish (r : Except Failure Unit × World) : Option World :=
  match r with
  | (.ok _, w) => some w
  | (.error _, _) => none

theorem finish_eq_some {r : Except Failure Unit × World} :
    finish r = some w' ↔ r = (.ok (), w') := by
  obtain ⟨_ | _, w⟩ := r
  · simp [finish]
  · simp [finish]

/-- An operation, run to its end. An event that its handler refuses is no operation. -/
def perform (env : Env) (w : World) : Operation → Option World
  | .handle k now conversation_id raw =>
    finish ((handle (failureFree env now) k conversation_id raw).run w)
  | .disconnect conversation_id =>
    finish ((disconnect (failureFree env env.now) conversation_id).run w)
  | .agentGoOnline a max_chats skills =>
    some { w with router := w.router.agentGoOnline a max_chats skills }
  | .agentHeartbeat a => some { w with router := w.router.agentHeartbeat a }
  | .expireStatus a => some { w with router := w.router.expireStatus a }
  | .agentGoOffline a => some { w with router := w.router.agentGoOffline a }

/-- The guard of the law, for an event: only a conversation that nobody holds is started, or is
given to the agent with the empty id. -/
def Event.KeepsAgreement (env : Env) (w : World) : Event → Prop
  | .chatStart event => w.router.releaseRead event.conversation_id = none
  | .transferToAgent event =>
    w.router.leastLoaded env.find "" = some "" → w.router.releaseRead event.conversation_id = none
  | .incomingMessage _ | .outgoingMessage _ | .chatEnd _ | .ack _ => True

/-- The guard of the law. Only a conversation that nobody holds is disconnected. -/
def KeepsAgreement (env : Env) (w : World) : Operation → Prop
  | .handle k _ _ raw => ∀ e, Event.parse env.parsing raw k = some e → e.KeepsAgreement env w
  | .disconnect conversation_id => w.router.releaseRead conversation_id = none
  | .agentGoOnline .. | .agentHeartbeat _ | .expireStatus _ | .agentGoOffline _ => True

/-- A transfer names the agent that it finds on both sides, unless that agent has the empty id. -/
theorem Agrees.onTransferToAgent_iff {now : DateTime} {event : TransferToAgentEvent}
    (h : Agrees w)
    (hrun : ((Event.transferToAgent event).on (failureFree env now) key).run w = (.ok (), w')) :
    Agrees w' ↔ (Event.transferToAgent event).KeepsAgreement env w := by
  obtain ⟨hrouter, htracker⟩ := run_onTransferToAgent hrun
  have hread (d : String) := hrouter ▸ Router.releaseRead_routeLua env.find w.router
    event.conversation_id "" d
  change _ = (match w.router.leastLoaded env.find "" with
    | none => w.tracker
    | some a => if a = "" then w.tracker else w.tracker.chatAssigned event.conversation_id a)
    at htracker
  rw [Event.KeepsAgreement]
  cases hleast : w.router.leastLoaded env.find "" with
  | none =>
    simp only [hleast] at hread htracker
    refine iff_of_true (agrees_iff_named.mpr fun c => ?_) (by simp)
    rw [Named, hread, htracker]
    exact agrees_iff_named.mp h c
  | some a =>
    simp only [hleast] at hread htracker
    have hnamed := agrees_iff_named.mp h event.conversation_id
    by_cases ha : a = ""
    · rw [if_pos ha] at htracker
      rw [agrees_iff_of_update h (c := event.conversation_id)
        (fun d hd => by rw [hread, if_neg hd]) fun d _ => by rw [htracker], Named, hread,
        if_pos rfl, htracker, ← hnamed]
      simp [Option.filter, ha, eq_comm]
    · rw [if_neg ha] at htracker
      rw [agrees_iff_of_update h (c := event.conversation_id)
        (fun d hd => by rw [hread, if_neg hd])
        fun d hd => by rw [htracker, Tracker.shownAgent_chatAssigned, if_neg hd], Named, hread,
        if_pos rfl, htracker, Tracker.shownAgent_chatAssigned, if_pos rfl]
      simp [ha]

/-- One event. -/
theorem agrees_on_iff {now : DateTime} {e : Event} (h : Agrees w)
    (hrun : (e.on (failureFree env now) key).run w = (.ok (), w')) :
    Agrees w' ↔ e.KeepsAgreement env w := by
  cases e with
  | chatStart event =>
    obtain ⟨hrouter, htracker⟩ := run_onChatStart hrun
    rw [agrees_iff_of_update h (c := event.conversation_id) (fun d _ => by rw [hrouter])
      fun d hd => by rw [htracker, Tracker.shownAgent_chatOnline, if_neg hd], Named, hrouter,
      htracker, Tracker.shownAgent_chatOnline, if_pos rfl]
    rfl
  | incomingMessage event =>
    exact iff_of_true (((sameAgents_onIncomingMessage event).of_run hrun).agrees h) trivial
  | outgoingMessage event =>
    exact iff_of_true (((sameAgents_onOutgoingMessage event).of_run hrun).agrees h) trivial
  | transferToAgent event =>
    exact h.onTransferToAgent_iff hrun
  | chatEnd event =>
    obtain ⟨hrouter, htracker⟩ := run_onChatEnd hrun
    refine iff_of_true ?_ trivial
    rw [agrees_iff_of_update h (c := event.conversation_id)
      (fun d hd => by rw [hrouter, Router.releaseRead_releaseAgentSlot, if_neg hd])
      fun d hd => by rw [htracker, Tracker.shownAgent_chatOffline, if_neg hd], Named, hrouter,
      htracker, Router.releaseRead_releaseAgentSlot, Tracker.shownAgent_chatOffline, if_pos rfl,
      if_pos rfl]
    rfl
  | ack event => exact iff_of_true (((sameAgents_onAck event).of_run hrun).agrees h) trivial

/-- The end of a connection. -/
theorem agrees_disconnect_iff {c : String} (h : Agrees w)
    (hrun : (disconnect (failureFree env env.now) c).run w = (.ok (), w')) :
    Agrees w' ↔ w.router.releaseRead c = none := by
  obtain ⟨w₁, hunregister, hoffline⟩ := Effect.then_eq_ok.mp hrun
  obtain ⟨-, hunregister⟩ := Env.call_eq_ok.mp hunregister
  obtain ⟨-, rfl⟩ := Prod.mk.inj hunregister
  obtain ⟨hrouter, htracker⟩ := run_chatOffline hoffline
  rw [agrees_iff_of_update h (c := c) (fun d _ => by rw [hrouter])
    fun d hd => by rw [htracker, Tracker.shownAgent_chatOffline, if_neg hd], Named, hrouter,
    htracker, Tracker.shownAgent_chatOffline, if_pos rfl]
  rfl

/-- The work of one step. -/
theorem agrees_perform_iff {op : Operation} (h : Agrees w) (hrun : perform env w op = some w') :
    Agrees w' ↔ KeepsAgreement env w op := by
  cases op with
  | handle k now conversation_id raw =>
    have hrun := finish_eq_some.mp hrun
    cases hparse : Event.parse env.parsing raw k with
    | none =>
      have hinvalid : Event.parse (failureFree env now).parsing raw k = none := hparse
      rw [handle_of_invalid hinvalid] at hrun
      exact absurd (Prod.mk.inj hrun).1 (by simp)
    | some e =>
      have hvalid : Event.parse (failureFree env now).parsing raw k = some e := hparse
      rw [handle_of_parse hvalid] at hrun
      rw [agrees_on_iff h hrun, KeepsAgreement, hparse]
      simp
  | disconnect conversation_id => exact agrees_disconnect_iff h (finish_eq_some.mp hrun)
  | agentGoOnline a max_chats skills =>
    obtain rfl := Option.some.inj hrun
    exact iff_of_true h trivial
  | agentHeartbeat a | expireStatus a | agentGoOffline a =>
    obtain rfl := Option.some.inj hrun
    exact iff_of_true h trivial

/-- **Router and tracker agree.** For every sequence of operations from stores that agree: in every
state of the run, if and only if every operation of it met its guard. -/
theorem router_tracker_agree_iff (env : Env) (w : World) (hw : Agrees w) (ops : List Operation) :
    Transition.Always (perform env) Agrees w ops ↔
      Transition.Guarded (perform env) (KeepsAgreement env) w ops :=
  Transition.always_iff_guarded (K := fun _ => True) (fun _ _ _ _ _ => trivial)
    (fun _ _ _ _ h hrun => agrees_perform_iff h hrun) trivial hw

/-- An event of conversation `conv-1`. -/
def event (event_type : String) : Dict Json :=
  [⟨"event_type", .str event_type⟩, ⟨"conversation_id", .str "conv-1"⟩,
    ⟨"user_id", .str "user-1"⟩, ⟨"timestamp", .int 1748260800⟩].toAList

/-- A chat is assigned, and then its connection ends. -/
def droppedChat : List Operation :=
  [.agentGoOnline "agent-1" 5 [], .handle .chatStart .noon "conv-1" (event "chat_start"),
    .handle .transferToAgent .noon "conv-1" (event "transfer_to_agent"), .disconnect "conv-1"]

theorem router_tracker_agree_iff_droppedChat :
    Transition.Always (perform (.healthy .noon)) Agrees .empty droppedChat ↔
      Transition.Guarded (perform (.healthy .noon)) (KeepsAgreement (.healthy .noon)) .empty
        droppedChat :=
  router_tracker_agree_iff (.healthy .noon) .empty (fun _ _ _ => iff_of_false nofun nofun)
    droppedChat

/-- The end of a connection takes the chat off the tracker, and the agent keeps its slot. -/
theorem not_router_tracker_agree :
    ¬ ∀ (env : Env) (w : World) (ops : List Operation), (∀ c, w.router.active c = none) →
      (∀ c, w.tracker.chat c = ∅) → Transition.Always (perform env) Agrees w ops := by
  intro h
  have hrun := (h (.healthy .noon) .empty droppedChat (fun _ => rfl) fun _ => rfl).run rfl
  have hshown := (hrun "conv-1" "agent-1" (by decide)).mp (by decide)
  exact absurd hshown (by decide)

end Handlers

end TitanChat
