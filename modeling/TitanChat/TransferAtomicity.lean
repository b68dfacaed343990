import TitanChat.ConversationRow
import TitanChat.RoutingChoice

/-!
# A transfer that fails half-way

`transfer_to_agent` takes a slot first: the routing script assigns the conversation to an agent in
Redis. Only then does the handler write the agent into the conversation and into the tracker, and
publish the record of the assignment. Each of these steps may raise, and so may the message for the
dashboard that `route_to_agent` sends right after the script. None of them is undone when a later
one fails, and none of them is caught.

So a transfer that has taken a slot is recorded in all its places if and only if every step up to
the publish succeeds. It is not recorded either when the agent it has found has the empty id, which
the handler takes for nobody. What the push to the client does is of no consequence.

The publish may fail here too, which it does not in the other modules: `onTransferWith` is the
handler with the outcome of its publish as an argument.

## Main definitions

* `endsWith`, `onTransferWith`: the handler
* `NothingTaken`, `Recorded`, `AllOrNothing`: the law

## Main results

* `allOrNothing_iff`: when a transfer is all or nothing
-/

namespace TitanChat

namespace Handlers

/-- An effect that ends in the given way. -/
def endsWith {α : Type} (o : Outcome) (act : Act α) : Act α :=
  .of fun w =>
    match o with
    | .done => act.run w
    | .refused => (.error .unreachable, w)
    | .unanswered => (.error .unreachable, (act.run w).2)

/-- `recordAssignment`, with the outcome of its publish. -/
def recordWith (o : Outcome) (env : Env) (conversation_id : String) (event : TransferToAgentEvent)
    (agent_id : String) : Act Unit := do
  env.dbExecute .updateConversation (assignConversation event.conversation_id agent_id)
  chatAssigned env event.conversation_id agent_id
  endsWith o (publishMessage CHAT_PERSIST conversation_id (assignmentRecord event agent_id))

/-- The message for the client. -/
def pushTransfer (env : Env) (conversation_id : String) (event : TransferToAgentEvent)
    (agent_id : Option String) : Act Unit :=
  push env conversation_id
    [("event_type", .str "transfer_initiated"), ("conversation_id", .str event.conversation_id),
      ("agent_id", .str (agent_id.getD "waiting")), ("reason", .str event.reason),
      ("timestamp", .int event.timestamp)]

/-- What the handler does with the answer of `route_to_agent`. -/
def afterRouting (o : Outcome) (env : Env) (conversation_id : String)
    (event : TransferToAgentEvent) : Option String → Act Unit
  | some agent_id => do
    recordWith o env conversation_id event agent_id
    pushTransfer env conversation_id event (some agent_id)
  | none => pushTransfer env conversation_id event none

/-- `transfer_to_agent.handle` after the validation, with the outcome of its publish. -/
def onTransferWith (o : Outcome) (env : Env) (conversation_id : String)
    (event : TransferToAgentEvent) : Act Unit := do
  let agent_id ← routeToAgent env event.conversation_id
  afterRouting o env conversation_id event agent_id

/-- It is the handler of the other modules if the publish succeeds. -/
theorem onTransferWith_done : onTransferWith .done = onTransferToAgent := by
  funext env conversation_id event
  refine congrArg (routeToAgent env event.conversation_id >>= ·) (funext fun agent_id => ?_)
  cases agent_id <;> rfl

/-! ### The law -/

/-- No slot is taken for the conversation. Members that are not online may have been pruned. -/
structure NothingTaken (c : String) (w w' : World) : Prop where
  active : w'.router.active c = w.router.active c
  chats : w'.router.chats = w.router.chats
  scores : ∀ a, w'.router.available.lookup a = w.router.available.lookup a ∨
    w'.router.available.lookup a = none ∧ w.router.status a ≠ some "online"

/-- The router, the tracker and the conversation name agent `a`, and the record is published. -/
structure Recorded (key : String) (event : TransferToAgentEvent) (w w' : World) (a : String) :
    Prop where
  router : w'.router.holder event.conversation_id = some a
  tracker : w'.tracker.shownAgent event.conversation_id = some a
  row : (conversationRow w'.db event.conversation_id).bind (·.lookup "agent_id") = some (.text a)
  published : w'.published =
    w.published ++ [⟨CHAT_PERSIST, key, .obj (assignmentRecord event a)⟩]

/-- The transfer is all or nothing. -/
def AllOrNothing (key : String) (event : TransferToAgentEvent) (w w' : World) : Prop :=
  NothingTaken event.conversation_id w w' ∨ ∃ a, Recorded key event w w' a

/-- The steps after the script and up to the publish succeed. -/
structure StepsSucceed (o : Outcome) (env : Env) (event : TransferToAgentEvent) : Prop where
  feed : env.outcome .routeFeed = .done
  update : env.outcome .updateConversation = .done
  named : event.conversation_id ≠ ""
  assigned : env.outcome .chatAssigned = .done
  publish : o ≠ .refused
  fits : Json.Wide event.timestamp

/-! ### What the steps leave alone -/

section Steps

variable {o : Outcome} {env : Env} {key : String} {event : TransferToAgentEvent} {w : World}
  {a : String}

/-- The router is as before. -/
def SameRouter (w w' : World) : Prop := w'.router = w.router

instance : Std.Refl SameRouter := ⟨fun _ => rfl⟩

instance : IsTrans World SameRouter := ⟨fun _ _ _ h h' => h'.trans h⟩

/-- Nothing more is published. -/
def SamePublished (w w' : World) : Prop := w'.published = w.published

instance : Std.Refl SamePublished := ⟨fun _ => rfl⟩

instance : IsTrans World SamePublished := ⟨fun _ _ _ h h' => h'.trans h⟩

theorem keeps_endsWith {R : World → World → Prop} [Std.Refl R] {α : Type} {act : Act α}
    (h : Effect.Keeps R act) : Effect.Keeps R (endsWith o act) := by
  intro w
  rw [endsWith]
  cases o with
  | done | unanswered => exact h w
  | refused => exact refl w

theorem sameRouter_recordWith : Effect.Keeps SameRouter (recordWith o env key event a) :=
  Effect.keeps_bind (Env.keeps_dbExecute fun _ _ _ => rfl) fun _ =>
    Effect.keeps_bind (Env.keeps_track fun _ => rfl) fun _ =>
      keeps_endsWith (keeps_publishMessage fun _ _ => rfl)

theorem sameRouter_afterRouting (agent_id : Option String) :
    Effect.Keeps SameRouter (afterRouting o env key event agent_id) := by
  cases agent_id with
  | some a => exact Effect.keeps_bind sameRouter_recordWith fun _ => keeps_push fun _ _ => rfl
  | none => exact keeps_push fun _ _ => rfl

/-! ### Routing -/

/-- The world after the script. -/
def afterScript (env : Env) (c : String) (w : World) : World :=
  { w with router := (w.router.routeLua env.find c "").2 }

theorem run_routeToAgent_of_none {c : String} (hscript : env.outcome .routeScript = .done)
    (h : ∀ a n, ¬w.router.Eligible a n) :
    (routeToAgent env c).run w = (.ok none, afterScript env c w) := by
  rw [routeToAgent, Effect.run_bind, Env.run_call_of_done hscript]
  simp only [Router.reply_of_none env.find h]
  rfl

theorem run_routeToAgent_of_first {c : String} {n : ℤ} (hscript : env.outcome .routeScript = .done)
    (h : w.router.FirstEligible a n) :
    (routeToAgent env c).run w =
      (if a = "" then .ok none
        else if env.outcome .routeFeed = .done then .ok (some a) else .error .unreachable,
        afterScript env c w) := by
  rw [routeToAgent, Effect.run_bind, Env.run_call_of_done hscript]
  simp only [Router.reply_of_first env.find h]
  by_cases ha : a = ""
  · simp only [if_pos ha]
    rfl
  · simp only [if_neg ha, Effect.run_bind, Env.call]
    cases env.outcome .routeFeed <;> rfl

theorem snd_run_routeToAgent {c : String} (hscript : env.outcome .routeScript = .done) :
    ((routeToAgent env c).run w).2 = afterScript env c w := by
  obtain ⟨a, n, h⟩ | h := w.router.firstEligible_or_none
  · rw [run_routeToAgent_of_first hscript h]
  · rw [run_routeToAgent_of_none hscript h]

/-- The script decides the router, whatever fails later. -/
theorem router_onTransferWith (hscript : env.outcome .routeScript = .done) :
    ((onTransferWith o env key event).run w).2.router =
      (w.router.routeLua env.find event.conversation_id "").2 := by
  have hrest := Effect.after_bind (m := routeToAgent env event.conversation_id)
    (f := afterRouting o env key event) sameRouter_afterRouting w
  rw [snd_run_routeToAgent hscript] at hrest
  exact hrest

/-! ### Recording -/

/-- The world before the publish. -/
def afterStores (event : TransferToAgentEvent) (a : String) (w : World) : World :=
  { w with
    db := w.db.apply schema (assignConversation event.conversation_id a)
    tracker := w.tracker.chatAssigned event.conversation_id a }

/-- The publish is reached if the database and the tracker answer. -/
theorem run_recordWith (hupdate : env.outcome .updateConversation = .done)
    (hnamed : event.conversation_id ≠ "") (hassigned : env.outcome .chatAssigned = .done) :
    (recordWith o env key event a).run w =
      (endsWith o (publishMessage CHAT_PERSIST key (assignmentRecord event a))).run
        (afterStores event a w) := by
  have haccepted : (assignConversation event.conversation_id a).accepted schema = true := by
    rw [accepted_assignConversation, decide_eq_true hnamed]
  have hdb : (env.dbExecute .updateConversation
      (assignConversation event.conversation_id a)).run w =
      (.ok (),
        { w with db := w.db.apply schema (assignConversation event.conversation_id a) }) := by
    rw [Env.dbExecute, Env.run_call_of_done hupdate]
    simp only [WideColumn.Database.execute_eq_apply haccepted]
  rw [recordWith, Effect.run_bind_of_ok hdb, chatAssigned, Env.track,
    Effect.run_bind_of_ok (by rw [Env.run_call_of_done hassigned, Effect.run_modify])]
  rfl

/-- Otherwise the handler raises before it publishes. -/
theorem run_recordWith_of_not (h : ¬(env.outcome .updateConversation = .done ∧
    event.conversation_id ≠ "" ∧ env.outcome .chatAssigned = .done)) :
    ∃ e w', (recordWith o env key event a).run w = (.error e, w') ∧ SamePublished w w' := by
  have hdb : Effect.Keeps SamePublished (env.dbExecute .updateConversation
      (assignConversation event.conversation_id a)) := Env.keeps_dbExecute fun _ _ _ => rfl
  have htrack : Effect.Keeps SamePublished (chatAssigned env event.conversation_id a) :=
    Env.keeps_track fun _ => rfl
  rcases hrun : (env.dbExecute .updateConversation
    (assignConversation event.conversation_id a)).run w with ⟨_ | ⟨⟩, w₁⟩
  · next e => exact ⟨e, w₁, Effect.run_bind_of_error hrun, hdb.of_run hrun⟩
  · rcases hrun' : (chatAssigned env event.conversation_id a).run w₁ with ⟨_ | ⟨⟩, w₂⟩
    · next e =>
      refine ⟨e, w₂, ?_, IsTrans.trans _ _ _ (hdb.of_run hrun) (htrack.of_run hrun')⟩
      exact (Effect.run_bind_of_ok hrun).trans (Effect.run_bind_of_error hrun')
    · obtain ⟨hupdate, haccepted⟩ := Env.ok_dbExecute.mp (congrArg Prod.fst hrun)
      have hassigned := Env.ok_track.mp (congrArg Prod.fst hrun')
      rw [accepted_assignConversation, decide_eq_true_eq] at haccepted
      exact absurd ⟨hupdate, haccepted, hassigned⟩ h

/-- The publish goes through, or the handler raises and nothing is published. -/
theorem run_publish (w : World) :
    (o ≠ .refused ∧ Json.Wide event.timestamp ∧
        ((endsWith o (publishMessage CHAT_PERSIST key (assignmentRecord event a))).run w).2 =
          { w with published :=
            w.published ++ [⟨CHAT_PERSIST, key, .obj (assignmentRecord event a)⟩] }) ∨
      ¬(o ≠ .refused ∧ Json.Wide event.timestamp) ∧
        ∃ e, (endsWith o (publishMessage CHAT_PERSIST key (assignmentRecord event a))).run w =
          (.error e, w) := by
  have hscalar : ∀ kv ∈ assignmentRecord event a, kv.2.Scalar := by simp [assignmentRecord]
  have hcarried : (∀ kv ∈ assignmentRecord event a, kv.2.Carried) ↔ Json.Wide event.timestamp := by
    simp [assignmentRecord]
  by_cases hwide : Json.Wide event.timestamp
  · have hrun : (publishMessage CHAT_PERSIST key (assignmentRecord event a)).run w = _ :=
      run_publishMessage_of_carried hscalar (hcarried.mpr hwide) w
    cases o with
    | done => exact Or.inl ⟨by decide, hwide, by simp only [endsWith, hrun]⟩
    | refused => exact Or.inr ⟨fun h => h.1 rfl, .unreachable, rfl⟩
    | unanswered => exact Or.inl ⟨by decide, hwide, by simp only [endsWith, hrun]⟩
  · have hrun : (publishMessage CHAT_PERSIST key (assignmentRecord event a)).run w = _ :=
      run_publishMessage_of_not_carried hscalar (mt hcarried.mp hwide) w
    refine Or.inr ⟨fun h => hwide h.2, ?_⟩
    cases o with
    | done => exact ⟨.encoding, by simp only [endsWith, hrun]⟩
    | refused => exact ⟨.unreachable, rfl⟩
    | unanswered => exact ⟨.unreachable, by simp only [endsWith, hrun]⟩

/-- A push leaves the stores and Kafka alone. -/
structure SameStores (w w' : World) : Prop where
  router : w'.router = w.router
  tracker : w'.tracker = w.tracker
  db : w'.db = w.db
  published : w'.published = w.published

instance : Std.Refl SameStores := ⟨fun _ => ⟨rfl, rfl, rfl, rfl⟩⟩

theorem sameStores_pushTransfer (agent_id : Option String) :
    Effect.Keeps SameStores (pushTransfer env key event agent_id) :=
  keeps_push fun _ _ => ⟨rfl, rfl, rfl, rfl⟩

theorem sameStores_recordWith : SameStores ((recordWith o env key event a).run w).2
    ((afterRouting o env key event (some a)).run w).2 :=
  Effect.after_bind (fun _ => sameStores_pushTransfer (some a)) w

/-- **After routing to `a`**: the assignment is recorded if the steps succeed. -/
theorem recorded_of_steps (h : StepsSucceed o env event)
    (hholder : w.router.holder event.conversation_id = some a) :
    Recorded key event w ((afterRouting o env key event (some a)).run w).2 a := by
  have hsame : SameStores _ ((afterRouting o env key event (some a)).run w).2 :=
    sameStores_recordWith
  rw [run_recordWith h.update h.named h.assigned] at hsame
  obtain ⟨-, -, hstate⟩ | ⟨hnot, -⟩ := run_publish (afterStores event a w)
  · rw [hstate] at hsame
    have hwrites : WritesRow event.conversation_id (assignConversation event.conversation_id a) :=
      writesRow_assignConversation.mpr ⟨h.named, rfl⟩
    refine ⟨?_, ?_, ?_, hsame.published⟩
    · rw [hsame.router]
      exact hholder
    · rw [hsame.tracker]
      exact (Tracker.shownAgent_chatAssigned ..).trans (if_pos rfl)
    · rw [hsame.db]
      refine (lookup_of_writesRow hwrites w.db "agent_id").trans ?_
      simp [assignConversation, WideColumn.Statement.write]
  · exact absurd ⟨h.publish, h.fits⟩ hnot

/-- Nothing is published if one of them fails after the feed. -/
theorem published_of_not_steps (hfeed : env.outcome .routeFeed = .done)
    (h : ¬StepsSucceed o env event) :
    ((afterRouting o env key event (some a)).run w).2.published = w.published := by
  rw [sameStores_recordWith.published]
  by_cases hstores : env.outcome .updateConversation = .done ∧ event.conversation_id ≠ "" ∧
      env.outcome .chatAssigned = .done
  · obtain ⟨hupdate, hnamed, hassigned⟩ := hstores
    rw [run_recordWith hupdate hnamed hassigned]
    obtain ⟨hpublish, hfits, -⟩ | ⟨-, e, hrun⟩ := run_publish (afterStores event a w)
    · exact absurd ⟨hfeed, hupdate, hnamed, hassigned, hpublish, hfits⟩ h
    · rw [hrun]
      rfl
  · obtain ⟨e, w', hrun, hsame⟩ := run_recordWith_of_not hstores
    rw [hrun]
    exact hsame

theorem not_recorded {w w' : World} (h : w'.published = w.published) :
    ¬∃ a, Recorded key event w w' a := by
  rintro ⟨a, hrecorded⟩
  have hlength := congrArg List.length (h.symm.trans hrecorded.published)
  simp at hlength

/-- A transfer that takes a slot leaves an entry for its conversation. -/
theorem active_of_first {n : ℤ} (hscript : env.outcome .routeScript = .done)
    (ha : w.router.FirstEligible a n) :
    ((onTransferWith o env key event).run w).2.router.active event.conversation_id =
      some { agent_id := a, status := "active" } := by
  have hrouted := Router.routed_of_first env.find ha event.conversation_id
  rw [router_onTransferWith hscript, hrouted.active]
  exact Function.update_self ..

/-- **A slot that is taken** is recorded if and only if the agent has an id and the steps
succeed. -/
theorem recorded_iff_of_first {n : ℤ} (hscript : env.outcome .routeScript = .done)
    (ha : w.router.FirstEligible a n) :
    (∃ b, Recorded key event w ((onTransferWith o env key event).run w).2 b) ↔
      a ≠ "" ∧ StepsSucceed o env event := by
  have hrun := run_routeToAgent_of_first (c := event.conversation_id) hscript ha
  by_cases hempty : a = ""
  · rw [if_pos hempty] at hrun
    refine iff_of_false (not_recorded ?_) fun h => h.1 hempty
    rw [onTransferWith, Effect.run_bind_of_ok hrun]
    exact (sameStores_pushTransfer none _).published
  rw [if_neg hempty] at hrun
  by_cases hfeed : env.outcome .routeFeed = .done
  · rw [if_pos hfeed] at hrun
    have hfinal : (onTransferWith o env key event).run w =
        (afterRouting o env key event (some a)).run
          (afterScript env event.conversation_id w) := Effect.run_bind_of_ok hrun
    rw [hfinal]
    by_cases hsteps : StepsSucceed o env event
    · refine iff_of_true ⟨a, ?_⟩ ⟨hempty, hsteps⟩
      have hrouted := Router.routed_of_first env.find ha event.conversation_id
      have hholder : (afterScript env event.conversation_id w).router.holder
          event.conversation_id = some a := by
        rw [Router.holder, afterScript, hrouted.active, Option.elim_some, Function.update_self,
          Option.map_some]
      have hrecorded : Recorded key event (afterScript env event.conversation_id w) _ a :=
        recorded_of_steps hsteps hholder
      exact { hrecorded with published := hrecorded.published }
    · refine iff_of_false (not_recorded ?_) fun h => hsteps h.2
      exact published_of_not_steps hfeed hsteps
  · rw [if_neg hfeed] at hrun
    refine iff_of_false (not_recorded ?_) fun h => hfeed h.2.feed
    rw [onTransferWith, Effect.run_bind_of_error hrun]
    rfl

/-- If nobody is eligible, the script prunes and takes nothing. -/
theorem nothingTaken_of_none (hscript : env.outcome .routeScript = .done)
    (hnone : ∀ a n, ¬w.router.Eligible a n) :
    NothingTaken event.conversation_id w ((onTransferWith o env key event).run w).2 := by
  have hrouter : ((onTransferWith o env key event).run w).2.router = _ :=
    router_onTransferWith hscript
  have hrouted := Router.routed_of_none env.find hnone event.conversation_id
  rw [← hrouter] at hrouted
  refine ⟨congrFun hrouted.active _, hrouted.chats, fun a => ?_⟩
  by_cases hpruned : w.router.Pruned none a
  · obtain ⟨-, -, -, hoff, -⟩ := id hpruned
    exact Or.inr ⟨hrouted.pruned a hpruned, hoff⟩
  · exact Or.inl (hrouted.others a hpruned fun p hp => absurd hp (Option.not_mem_none p))

/-- **All or nothing, exactly.** A transfer of a conversation that nobody has, whose script has run,
takes no slot or is recorded in all its places if and only if nobody is eligible, or the first
eligible agent has an id and every step up to the publish succeeds. -/
theorem allOrNothing_iff (hscript : env.outcome .routeScript = .done)
    (hfree : w.router.active event.conversation_id = none) :
    AllOrNothing key event w ((onTransferWith o env key event).run w).2 ↔
      (∀ a n, ¬w.router.Eligible a n) ∨
        (∃ a n, w.router.FirstEligible a n ∧ a ≠ "") ∧ StepsSucceed o env event := by
  obtain ⟨a, n, ha⟩ | hnone := w.router.firstEligible_or_none
  · have htaken : ¬NothingTaken event.conversation_id w
        ((onTransferWith o env key event).run w).2 := by
      intro h
      have hactive := h.active
      rw [active_of_first hscript ha, hfree] at hactive
      exact Option.some_ne_none _ hactive
    rw [AllOrNothing, or_iff_right htaken, recorded_iff_of_first hscript ha]
    constructor
    · exact fun ⟨hne, hsteps⟩ => Or.inr ⟨⟨a, n, ha, hne⟩, hsteps⟩
    · rintro (hnone | ⟨⟨b, m, hb, hne⟩, hsteps⟩)
      · exact absurd ha.1 (hnone a n)
      · exact ⟨ha.unique hb ▸ hne, hsteps⟩
  · exact iff_of_true (Or.inl (nothingTaken_of_none hscript hnone)) (Or.inl hnone)

end Steps

/-- A conversation that is transferred, and one agent with room for it. -/
def transferEvent : TransferToAgentEvent := ⟨"conv-1", "bot-1", "billing", 1700000000⟩

def oneAgent : World := { World.empty with router := Router.empty.agentGoOnline "agent-1" 5 [] }

theorem allOrNothing_when_all_succeed : AllOrNothing "conv-1" transferEvent oneAgent
    ((onTransferWith .done (.healthy .noon) "conv-1" transferEvent).run oneAgent).2 := by
  have hfirst : oneAgent.router.FirstEligible "agent-1" 0 :=
    (Router.find?_eq_some_iff (fun _ _ => some true) _ _ _).mp (by decide)
  refine (allOrNothing_iff rfl rfl).mpr (Or.inr ⟨⟨"agent-1", 0, hfirst, by decide⟩, ?_⟩)
  exact ⟨rfl, rfl, by decide, rfl, by decide, by decide⟩

/-- The database refuses the update: the agent keeps the slot, and nobody is told. -/
theorem not_allOrNothing : ¬∀ (o : Outcome) (env : Env) (key : String)
    (event : TransferToAgentEvent) (w : World), env.outcome .routeScript = .done →
      w.router.active event.conversation_id = none →
        AllOrNothing key event w ((onTransferWith o env key event).run w).2 := by
  intro h
  have hcase := h .done { Env.healthy .noon with
    outcome := fun c => if c = .updateConversation then .refused else .done } "conv-1"
    transferEvent oneAgent rfl rfl
  obtain hnothing | hrecorded := hcase
  · exact absurd hnothing.active (by decide)
  · refine not_recorded ?_ hrecorded
    rfl

end Handlers

end TitanChat
