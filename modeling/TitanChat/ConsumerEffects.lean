import TitanChat.AgentRouter
import TitanChat.Events
import TitanChat.Internal.Effect
import TitanChat.OnlineTracker
import TitanChat.Schema

/-!
# What a handler does to the world

The services that the event handlers call, and the helpers between: Redis with the router, the
tracker and the registries, Cassandra, the HTTP push to a gateway, Kafka.

Every call but a publish may fail, before or after it has taken effect; `Env.outcome` says how. A
publish reaches a broker that accepts it, but only if `orjson` can serialise the payload: its
integers must fit in 64 bits.

The admin feed is left out. `publish_admin_event` is the last call of a handler, swallows every
error and stores nothing. So is the message that `route_to_agent` publishes for the dashboard, but
not its failure.

## Main definitions

* `World`, `Env`, `Call`, `Outcome`, `Act`
* `dbExecute`, `publishMessage`, `pushToClient`
* `routeToAgent`, `releaseAgentSlot`, `chatOffline` and the other helpers
* `ReachesClient`, `PushRaises`: how a push ends, as predicates of the world

## Main results

* `run_pushVia`, `run_pushToClient`: a push in one step
-/

namespace TitanChat

open WideColumn

/-- Why a handler raises. -/
inductive Failure where
  /-- The payload is no valid event. -/
  | validation
  /-- A service does not answer. -/
  | unreachable
  /-- The database refuses a statement. -/
  | invalidStatement
  /-- The payload of a publish cannot be serialised. -/
  | encoding
  /-- The worker of `chat-persist` cannot read a record. -/
  | malformedRecord
  deriving DecidableEq

/-- How a call to a service ends. -/
inductive Outcome where
  | done
  /-- An error, and no effect. -/
  | refused
  /-- An error, after the effect. -/
  | unanswered
  deriving DecidableEq

/-- The calls of the handlers and of `ConnectionManager.disconnect`. -/
inductive Call where
  | insertConversation
  | insertConversationByBot
  | updateConversation
  | chatOnline
  | chatAssigned
  | chatMessageReceived
  | chatOfflineRead
  | chatOfflineExec
  | routeScript
  | routeFeed
  | releaseRead
  | releaseExec
  | getServer
  | getGateway
  | httpPush
  | unregisterConnection
  deriving DecidableEq

/-- A Kafka record, with its payload as a consumer decodes it. -/
structure Message where
  topic : String
  key : String
  payload : Json

/-- Settings, the clock, the validator, the pattern matching of Lua, and how each call ends. -/
structure Env where
  /-- `SERVER_ID`. -/
  serverId : String
  /-- `GATEWAY_INTERNAL_URL`. -/
  gatewayUrl : String
  now : DateTime
  parsing : Parsing
  find : String → String → Option Bool
  outcome : Call → Outcome

/-- The state of the services. -/
structure World where
  router : Router
  tracker : Tracker
  /-- `ws:conn:{conversation_id}`. -/
  connections : String → Option String
  /-- The hash `gateway:registry`. -/
  gateways : String → Option String
  db : Database Table
  /-- What gateways have been handed for a client. -/
  pushed : List (String × Json)
  published : List Message

/-- Nothing is stored and nobody is connected. -/
def World.empty : World where
  router := .empty
  tracker := .empty
  connections _ := none
  gateways _ := none
  db := .empty
  pushed := []
  published := []

/-- Forget what has been pushed and published. -/
def World.silent (w : World) : World := { w with pushed := [], published := [] }

/-- An environment in which every call is done. -/
def Env.healthy (now : DateTime) : Env where
  serverId := "gateway-1"
  gatewayUrl := "http://localhost:8001"
  now := now
  parsing := { intOfStr := String.toInt? }
  find _ _ := some true
  outcome _ := .done

/-- A step of a handler. -/
abbrev Act (α : Type) : Type := Effect Failure World α

/-- `config/topics.py`. -/
def CHAT_ACKS : String := "chat-acks"

def CHAT_PERSIST : String := "chat-persist"

namespace Env

/-- A call to a service. -/
def call (env : Env) {α : Type} (c : Call) (act : Act α) : Act α :=
  .of fun w =>
    match env.outcome c with
    | .done => act.run w
    | .refused => (.error .unreachable, w)
    | .unanswered => (.error .unreachable, (act.run w).2)

/-- `db_execute`. -/
def dbExecute (env : Env) (c : Call) (stmt : Statement Table) : Act Unit :=
  env.call c (.of fun w =>
    match w.db.execute schema stmt with
    | none => (.error .invalidStatement, w)
    | some db => (.ok (), { w with db := db }))

/-- Change the keys of the tracker. -/
def track (env : Env) (c : Call) (f : Tracker → Tracker) : Act Unit :=
  env.call c (Effect.modify fun w => { w with tracker := f w.tracker })

/-- Change the keys of the router. -/
def route (env : Env) (c : Call) (f : Router → Router) : Act Unit :=
  env.call c (Effect.modify fun w => { w with router := f w.router })

/-- Read from Redis. -/
def get (env : Env) {α : Type} (c : Call) (f : World → α) : Act α :=
  env.call c (.read f)

end Env

/-- `publish_message`. -/
def publishMessage (topic key : String) (payload : List (String × Json)) : Act Unit :=
  .of fun w =>
    match (Json.obj payload).transit with
    | none => (.error .encoding, w)
    | some v => (.ok (), { w with published := w.published ++ [⟨topic, key, v⟩] })

/-! ### Push to client -/

/-- A string that is missing or empty is false. -/
def truthy (s : Option String) : Option String := s.filter (· ≠ "")

/-- `_resolve_gateway_url`. -/
def resolveGatewayUrl (env : Env) (server_id : String) : Act (Option String) :=
  if server_id = env.serverId then pure (some env.gatewayUrl)
  else do
    let url ← env.get .getGateway fun w => w.gateways server_id
    return truthy url

/-- The `POST` to `/internal/push`, inside of the `try`: no exception leaves it. -/
def post (env : Env) (conversation_id : String) (payload : List (String × Json)) : Act Bool :=
  .of fun w =>
    let w' := { w with pushed := w.pushed ++ [(conversation_id, .obj payload)] }
    match env.outcome .httpPush with
    | .done => (.ok true, w')
    | .refused => (.ok false, w)
    | .unanswered => (.ok false, w')

/-- `push_to_client`. -/
def pushToClient (env : Env) (conversation_id : String) (payload : List (String × Json)) :
    Act Bool := do
  let server_id ← env.get .getServer fun w => w.connections conversation_id
  match truthy server_id with
  | none => return false
  | some server_id =>
    let base_url ← resolveGatewayUrl env server_id
    match truthy base_url with
    | none => return false
    | some _ => post env conversation_id payload

/-- `await push_to_client(...)`, as the handlers call it: the answer is not used. -/
def push (env : Env) (conversation_id : String) (payload : List (String × Json)) : Act Unit := do
  let _ ← pushToClient env conversation_id payload

/-! ### Router and tracker -/

/-- `route_to_agent` with no required skill. -/
def routeToAgent (env : Env) (conversation_id : String) : Act (Option String) := do
  let reply ← env.call .routeScript (.of fun w =>
    let (reply, router) := w.router.routeLua env.find conversation_id ""
    (.ok reply, { w with router := router }))
  match reply with
  | .assigned agent_id =>
    if agent_id = "" then return none
    else
      env.call .routeFeed (pure ())
      return some agent_id
  | .nil => return none
  | .error => Effect.fail .unreachable

/-- `release_agent_slot`. -/
def releaseAgentSlot (env : Env) (conversation_id : String) : Act Unit := do
  let agent_id ← env.get .releaseRead fun w => w.router.releaseRead conversation_id
  match agent_id with
  | none => return ()
  | some agent_id => env.route .releaseExec (·.releaseExec agent_id conversation_id)

/-- `chat_online`. -/
def chatOnline (env : Env) (conversation_id user_id server_id bot_id : String) : Act Unit :=
  env.track .chatOnline (·.chatOnline conversation_id user_id server_id bot_id env.now.micros)

/-- `chat_assigned`. -/
def chatAssigned (env : Env) (conversation_id agent_id : String) : Act Unit :=
  env.track .chatAssigned (·.chatAssigned conversation_id agent_id)

/-- `chat_message_received`. -/
def chatMessageReceived (env : Env) (conversation_id : String) : Act Unit :=
  env.track .chatMessageReceived (·.chatMessageReceived conversation_id env.now.micros)

/-- `chat_offline`. -/
def chatOffline (env : Env) (conversation_id : String) : Act Unit := do
  let meta_ ← env.get .chatOfflineRead fun w => w.tracker.chat conversation_id
  if meta_.entries.isEmpty then return ()
  else env.track .chatOfflineExec (·.chatOfflineExec conversation_id meta_)

/-! ### How a call ends -/

namespace Env

variable {env : Env} {α : Type} {c : Call}

theorem run_call_of_done (h : env.outcome c = .done) (act : Act α) (w : World) :
    (env.call c act).run w = act.run w := by
  simp only [call, h]

/-- A call that is not done raises. -/
theorem run_call_of_not_done (h : env.outcome c ≠ .done) (act : Act α) (w : World) :
    ((env.call c act).run w).1 = .error .unreachable := by
  rw [call]
  cases ho : env.outcome c with
  | done => exact absurd ho h
  | refused | unanswered => rfl

theorem run_get_of_done (h : env.outcome c = .done) (f : World → α) (w : World) :
    (env.get c f).run w = (.ok (f w), w) := by
  rw [get, run_call_of_done h, Effect.run_read]

theorem run_get_of_not_done (h : env.outcome c ≠ .done) (f : World → α) (w : World) :
    (env.get c f).run w = (.error .unreachable, w) := by
  rw [get, call]
  cases ho : env.outcome c with
  | done => exact absurd ho h
  | refused | unanswered => rfl

/-- How a call ends. -/
theorem ok_call {act : Act α} {w : World} {a : α} :
    ((env.call c act).run w).1 = .ok a ↔ env.outcome c = .done ∧ (act.run w).1 = .ok a := by
  by_cases h : env.outcome c = .done
  · rw [run_call_of_done h]
    exact ⟨fun ha => ⟨h, ha⟩, fun ha => ha.2⟩
  · rw [run_call_of_not_done h]
    exact iff_of_false (by simp) fun ha => h ha.1

theorem call_eq_ok {act : Act α} {w w' : World} {a : α} :
    (env.call c act).run w = (.ok a, w') ↔
      env.outcome c = .done ∧ act.run w = (.ok a, w') := by
  by_cases h : env.outcome c = .done
  · rw [run_call_of_done h]
    exact ⟨fun ha => ⟨h, ha⟩, fun ha => ha.2⟩
  · refine iff_of_false (fun hrun => ?_) fun ha => h ha.1
    have herror := run_call_of_not_done h act w
    rw [hrun] at herror
    exact absurd herror (by simp)

theorem get_eq_ok {f : World → α} {w w' : World} {a : α} :
    (env.get c f).run w = (.ok a, w') ↔ env.outcome c = .done ∧ f w = a ∧ w = w' := by
  rw [get, call_eq_ok, Effect.run_read, Prod.mk.injEq, Except.ok.injEq]

theorem track_eq_ok {f : Tracker → Tracker} {w w' : World} :
    (env.track c f).run w = (.ok (), w') ↔
      env.outcome c = .done ∧ { w with tracker := f w.tracker } = w' := by
  rw [track, call_eq_ok, Effect.run_modify, Prod.mk.injEq]
  simp only [true_and]

theorem route_eq_ok {f : Router → Router} {w w' : World} :
    (env.route c f).run w = (.ok (), w') ↔
      env.outcome c = .done ∧ { w with router := f w.router } = w' := by
  rw [route, call_eq_ok, Effect.run_modify, Prod.mk.injEq]
  simp only [true_and]

theorem ok_dbExecute {stmt : Statement Table} {w : World} :
    ((env.dbExecute c stmt).run w).1 = .ok () ↔
      env.outcome c = .done ∧ stmt.accepted schema := by
  rw [dbExecute, ok_call]
  refine and_congr_right fun _ => ?_
  have haccepted : (w.db.execute schema stmt).isSome = stmt.accepted schema :=
    Database.execute_isSome
  rw [← haccepted]
  cases h : w.db.execute schema stmt with
  | none => simp only [h, reduceCtorEq, Option.isSome_none, Bool.false_eq_true]
  | some db => simp only [h, Option.isSome_some]

theorem ok_track {f : Tracker → Tracker} {w : World} :
    ((env.track c f).run w).1 = .ok () ↔ env.outcome c = .done := by
  rw [track, ok_call]
  simp

theorem ok_route {f : Router → Router} {w : World} :
    ((env.route c f).run w).1 = .ok () ↔ env.outcome c = .done := by
  rw [route, ok_call]
  simp

/-- A relation that the effect keeps is kept by the call, also if it fails. -/
theorem keeps_call {R : World → World → Prop} [Std.Refl R] {act : Act α}
    (h : Effect.Keeps R act) : Effect.Keeps R (env.call c act) := by
  intro w
  rw [call]
  cases env.outcome c with
  | done | unanswered => exact h w
  | refused => exact refl w

end Env

theorem run_publishMessage_of_carried {topic key : String} {payload : List (String × Json)}
    (h : ∀ kv ∈ payload, kv.2.Scalar) (hc : ∀ kv ∈ payload, kv.2.Carried) (w : World) :
    (publishMessage topic key payload).run w =
      (.ok (), { w with published := w.published ++ [⟨topic, key, .obj payload⟩] }) := by
  simp only [publishMessage, Json.transit_of_carried h hc]

theorem run_publishMessage_of_not_carried {topic key : String} {payload : List (String × Json)}
    (h : ∀ kv ∈ payload, kv.2.Scalar) (hc : ¬∀ kv ∈ payload, kv.2.Carried) (w : World) :
    (publishMessage topic key payload).run w = (.error .encoding, w) := by
  simp only [publishMessage, Json.transit_of_not_carried h hc]

/-! ### Where a push goes -/

/-- The gateway a push is sent to: `some none` when the payload is dropped, `none` when the lookup
raises. -/
def pushTarget (env : Env) (w : World) (conversation_id : String) : Option (Option String) :=
  if env.outcome .getServer ≠ .done then none
  else
    match truthy (w.connections conversation_id) with
    | none => some none
    | some server_id =>
      if server_id = env.serverId then some (truthy (some env.gatewayUrl))
      else if env.outcome .getGateway ≠ .done then none
      else some (truthy (w.gateways server_id))

/-- The lookup of a push raises. -/
def PushRaises (env : Env) (w : World) (conversation_id : String) : Prop :=
  pushTarget env w conversation_id = none

/-- The payload of a push is handed to a gateway. -/
def ReachesClient (env : Env) (w : World) (conversation_id : String) : Prop :=
  (∃ url, pushTarget env w conversation_id = some (some url)) ∧ env.outcome .httpPush ≠ .refused

theorem truthy_truthy (s : Option String) : truthy (truthy s) = truthy s := by
  cases s with
  | none => rfl
  | some s => by_cases h : s = "" <;> simp [truthy, h]

/-- `push_to_client` with another request in place of the `POST`. -/
def pushVia (env : Env) (conversation_id : String) (send : String → Act Bool) : Act Bool := do
  let server_id ← env.get .getServer fun w => w.connections conversation_id
  match truthy server_id with
  | none => return false
  | some server_id =>
    let base_url ← resolveGatewayUrl env server_id
    match truthy base_url with
    | none => return false
    | some base_url => send base_url

/-- The two lookups in one step. -/
theorem run_pushVia (env : Env) (conversation_id : String) (send : String → Act Bool) (w : World) :
    (pushVia env conversation_id send).run w =
      match pushTarget env w conversation_id with
      | none => (.error .unreachable, w)
      | some none => (.ok false, w)
      | some (some base_url) => (send base_url).run w := by
  rw [pushVia, pushTarget]
  by_cases hs : env.outcome .getServer = .done
  · rw [if_neg (not_not.mpr hs), Effect.run_bind_of_ok (Env.run_get_of_done hs ..)]
    cases truthy (w.connections conversation_id) with
    | none => rfl
    | some server_id =>
      simp only [resolveGatewayUrl]
      by_cases hown : server_id = env.serverId
      · rw [if_pos hown, if_pos hown, Effect.run_bind_of_ok (Effect.run_pure ..)]
        cases truthy (some env.gatewayUrl) <;> rfl
      · rw [if_neg hown, if_neg hown]
        by_cases hg : env.outcome .getGateway = .done
        · have hget : (do
              let url ← env.get .getGateway fun w => w.gateways server_id
              return truthy url : Act (Option String)).run w =
                (.ok (truthy (w.gateways server_id)), w) := by
            rw [Effect.run_bind_of_ok (Env.run_get_of_done hg ..), Effect.run_pure]
          rw [if_neg (not_not.mpr hg), Effect.run_bind_of_ok hget, truthy_truthy]
          cases truthy (w.gateways server_id) <;> rfl
        · rw [if_pos hg,
            Effect.run_bind_of_error (Effect.run_bind_of_error (Env.run_get_of_not_done hg ..))]
  · rw [if_pos hs, Effect.run_bind_of_error (Env.run_get_of_not_done hs ..)]

/-- **A push in one step.** -/
theorem run_pushToClient (env : Env) (conversation_id : String) (payload : List (String × Json))
    (w : World) : (pushToClient env conversation_id payload).run w =
      match pushTarget env w conversation_id with
      | none => (.error .unreachable, w)
      | some none => (.ok false, w)
      | some (some _) => (post env conversation_id payload).run w :=
  run_pushVia env conversation_id (fun _ => post env conversation_id payload) w

/-- The world after a push that did not raise. -/
def afterPush (env : Env) (conversation_id : String) (payload : List (String × Json)) (w : World) :
    World :=
  match pushTarget env w conversation_id with
  | some (some _) => ((post env conversation_id payload).run w).2
  | _ => w

section Push

variable {env : Env} {conversation_id : String} {payload : List (String × Json)} {w : World}

theorem ReachesClient.not_raises (h : ReachesClient env w conversation_id) :
    ¬PushRaises env w conversation_id := by
  obtain ⟨⟨url, hurl⟩, -⟩ := h
  rw [PushRaises, hurl]
  simp

theorem afterPush_of_reaches (h : ReachesClient env w conversation_id) :
    afterPush env conversation_id payload w =
      { w with pushed := w.pushed ++ [(conversation_id, .obj payload)] } := by
  obtain ⟨⟨url, hurl⟩, hpost⟩ := h
  rw [afterPush, hurl]
  simp only [post]
  cases ho : env.outcome .httpPush with
  | refused => exact absurd ho hpost
  | done | unanswered => rfl

theorem afterPush_of_not_reaches (h : ¬ReachesClient env w conversation_id) :
    afterPush env conversation_id payload w = w := by
  rw [afterPush]
  split
  · next url hurl =>
    have hrefused : env.outcome .httpPush = .refused := by
      by_contra hne
      exact h ⟨⟨url, hurl⟩, hne⟩
    simp only [post, hrefused]
  · rfl

theorem run_push_snd : ((push env conversation_id payload).run w).2 =
    afterPush env conversation_id payload w := by
  rw [push, Effect.run_bind, run_pushToClient, afterPush]
  rcases pushTarget env w conversation_id with _ | _ | url
  · rfl
  · rfl
  · simp only [post]
    cases env.outcome .httpPush <;> rfl

theorem ok_push : ((push env conversation_id payload).run w).1 = .ok () ↔
    ¬PushRaises env w conversation_id := by
  rw [push, Effect.run_bind, run_pushToClient, PushRaises]
  rcases pushTarget env w conversation_id with _ | _ | url
  · simp
  · simp
  · simp only [post]
    cases env.outcome .httpPush <;> simp

end Push

/-! ### Relations that the calls keep

One rule for each call. A relation is kept if what the call does when it takes effect is in it. -/

section Keeps

variable {env : Env} {c : Call} {R : World → World → Prop} [Std.Refl R]

theorem Env.keeps_dbExecute {stmt : Statement Table}
    (h : ∀ w db, w.db.execute schema stmt = some db → R w { w with db := db }) :
    Effect.Keeps R (env.dbExecute c stmt) := by
  refine Env.keeps_call fun w => ?_
  cases hdb : w.db.execute schema stmt with
  | none => simp only [hdb]; exact refl w
  | some db => simp only [hdb]; exact h w db hdb

theorem Env.keeps_track {f : Tracker → Tracker} (h : ∀ w, R w { w with tracker := f w.tracker }) :
    Effect.Keeps R (env.track c f) :=
  Env.keeps_call (Effect.keeps_modify h)

theorem Env.keeps_route {f : Router → Router} (h : ∀ w, R w { w with router := f w.router }) :
    Effect.Keeps R (env.route c f) :=
  Env.keeps_call (Effect.keeps_modify h)

theorem Env.keeps_get {α : Type} (f : World → α) : Effect.Keeps R (env.get c f) :=
  Env.keeps_call (Effect.keeps_read f)

theorem keeps_publishMessage {topic key : String} {payload : List (String × Json)}
    (h : ∀ w m, R w { w with published := w.published ++ [m] }) :
    Effect.Keeps R (publishMessage topic key payload) := by
  intro w
  rw [publishMessage]
  cases (Json.obj payload).transit with
  | none => exact refl w
  | some v => exact h w _

theorem keeps_push {conversation_id : String} {payload : List (String × Json)}
    (h : ∀ w m, R w { w with pushed := w.pushed ++ [m] }) :
    Effect.Keeps R (push env conversation_id payload) := by
  intro w
  rw [run_push_snd]
  by_cases hreach : ReachesClient env w conversation_id
  · rw [afterPush_of_reaches hreach]
    exact h w _
  · rw [afterPush_of_not_reaches hreach]
    exact refl w

variable [IsTrans World R] {conversation_id : String}

theorem keeps_routeToAgent
    (h : ∀ w, R w { w with router := (w.router.routeLua env.find conversation_id "").2 }) :
    Effect.Keeps R (routeToAgent env conversation_id) := by
  refine Effect.keeps_bind (Env.keeps_call fun w => h w) fun reply => ?_
  cases reply with
  | assigned a =>
    by_cases ha : a = ""
    · simp only [if_pos ha]
      exact Effect.keeps_pure _
    · simp only [if_neg ha]
      exact Effect.keeps_bind (Env.keeps_call (Effect.keeps_pure _)) fun _ => Effect.keeps_pure _
  | nil => exact Effect.keeps_pure _
  | error => exact Effect.keeps_fail _

theorem keeps_releaseAgentSlot
    (h : ∀ w a, R w { w with router := w.router.releaseExec a conversation_id }) :
    Effect.Keeps R (releaseAgentSlot env conversation_id) := by
  refine Effect.keeps_bind (Env.keeps_get _) fun agent_id => ?_
  cases agent_id with
  | none => exact Effect.keeps_pure _
  | some agent_id => exact Env.keeps_route fun w => h w agent_id

theorem keeps_chatOffline (h : ∀ w meta_,
      R w { w with tracker := w.tracker.chatOfflineExec conversation_id meta_ }) :
    Effect.Keeps R (chatOffline env conversation_id) := by
  refine Effect.keeps_bind (Env.keeps_get _) fun meta_ => ?_
  by_cases hempty : meta_.entries.isEmpty
  · rw [if_pos hempty]
    exact Effect.keeps_pure _
  · rw [if_neg hempty]
    exact Env.keeps_track fun w => h w meta_

end Keeps

end TitanChat
