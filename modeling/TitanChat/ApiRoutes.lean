import TitanChat.AccountTokens
import TitanChat.BotRegistry
import TitanChat.History
import TitanChat.TrackerCalls

/-!
# The routes of the API server

The routers `agents`, `bots`, `dashboard`, `conversations` and `ws_dashboard` of `api/routers`. Each
route takes its scope from the token of the request, through the dependency that it names: the first
three through `get_current_admin`, the conversations through `get_admin_id_from_user`. The dashboard
socket decodes the token by itself.

## Main definitions

* `listConversations`: next to `getConversation` and `getMessages`
* `AdminRoute`, `ConversationRoute`, `Route`
* `respondWith`, `respond`: a request with its token

## Main results

* `changes_respondWith`: no route removes an account or moves an agent to another admin
-/

namespace TitanChat

open WideColumn

/-! ### Bodies and responses -/

structure AgentCreate where
  email : String
  password : String
  name : String
  skills : List String
  max_chats : ℤ
  password_size : 8 ≤ password.length ∧ password.length ≤ 128
  name_size : 1 ≤ name.length ∧ name.length ≤ 255
  max_chats_range : 1 ≤ max_chats ∧ max_chats ≤ 20

structure AgentUpdate where
  name : Option String
  skills : Option (List String)
  max_chats : Option ℤ
  is_active : Option Bool
  max_chats_range : ∀ n, max_chats = some n → 1 ≤ n ∧ n ≤ 20

structure AgentResponse where
  id : Uuid
  admin_id : Uuid
  email : String
  name : String
  skills : List String
  max_chats : ℤ
  is_active : Bool
  created_at : ℤ

def AgentResponse.ofRow (agent : Agent) : AgentResponse where
  id := agent.id
  admin_id := agent.admin_id
  email := agent.email
  name := agent.name
  skills := agent.skills
  max_chats := agent.max_chats
  is_active := agent.is_active
  created_at := agent.created_at

structure BotListResponse where
  id : Uuid
  name : String
  is_active : Bool
  created_at : ℤ

structure DashboardStats where
  online_chats : ℕ
  online_agents : ℕ
  total_agents : ℕ
  queued_chats : ℕ

/-- An entry of `get_all_agents_status`. -/
structure AgentStatus where
  agent_id : String
  status : String
  active_chats : ℤ
  max_chats : ℤ
  skills : List String
  conversations : List String

/-- What a request returns. -/
inductive Data where
  | none
  | agent (a : AgentResponse)
  | agents (as : List AgentResponse)
  | bot (b : AccountBot)
  | bots (bs : List BotListResponse)
  | stats (s : DashboardStats)
  | agentsStatus (as : List AgentStatus)
  | activeChats (total : ℕ) (chats : List (Dict String))
  | conversation (c : ConversationResponse)
  | conversations (cs : List ConversationResponse)
  | messages (ms : List MessageResponse)
  /-- The socket is accepted, and gets what is published on the channel. -/
  | subscribed (channel : String)

/-- What the routes read besides PostgreSQL. -/
structure Backend where
  cassandra : Database Table
  /-- How Cassandra lists the rows of a partition. -/
  scan : (List Cell → Option Row) → List Row
  now : DateTime
  tracker : Tracker
  /-- `get_all_agents_status()`. -/
  agents_status : List AgentStatus

/-! ### Agents -/

/-- The agent of the path, if the admin owns it. -/
def ownAgent (db : Accounts) (admin : Admin) (agent_id : Uuid) : Option Agent :=
  (db.agents.lookup agent_id).filter fun agent => agent.admin_id = admin.id

def agentNotFound : HTTPException := ⟨404, "Agent not found"⟩

/-- The row that `create_agent` adds, with the `uuid.uuid4()`, the `hash_password(..)` and the
`func.now()` of the call. -/
def newAgent (admin : Admin) (id : Uuid) (password_hash : String) (created_at : ℤ)
    (body : AgentCreate) : Agent where
  id := id
  admin_id := admin.id
  email := body.email
  password_hash := password_hash
  name := body.name
  skills := body.skills
  max_chats := body.max_chats
  is_active := true
  created_at := created_at

/-- `create_agent`. -/
def createAgent (P : Columns) (admin : Admin) (id : Uuid) (password_hash : String) (created_at : ℤ)
    (body : AgentCreate) (s : Site) : Except HTTPException Data × Site :=
  if (agentOf s.db body.email).isSome then (.error emailTaken, s)
  else
    let agent := newAgent admin id password_hash created_at body
    match s.db.agents.add id agent Agent.email P.agent with
    | none => (.error internalServerError, s)
    | some agents => (.ok (.agent (.ofRow agent)), { s with db := { s.db with agents } })

/-- The fields of the body that are set. -/
def AgentUpdate.apply (body : AgentUpdate) (agent : Agent) : Agent :=
  { agent with
    name := body.name.getD agent.name
    skills := body.skills.getD agent.skills
    max_chats := body.max_chats.getD agent.max_chats
    is_active := body.is_active.getD agent.is_active }

/-- `update_agent`. -/
def updateAgent (P : Columns) (admin : Admin) (agent_id : Uuid) (body : AgentUpdate) (s : Site) :
    Except HTTPException Data × Site :=
  match ownAgent s.db admin agent_id with
  | none => (.error agentNotFound, s)
  | some agent =>
    match s.db.agents.store agent_id (body.apply agent) P.agent with
    | none => (.error internalServerError, s)
    | some agents =>
      (.ok (.agent (.ofRow (body.apply agent))), { s with db := { s.db with agents } })

/-- `delete_agent`. -/
def deleteAgent (admin : Admin) (agent_id : Uuid) (s : Site) : Except HTTPException Data × Site :=
  match ownAgent s.db admin agent_id with
  | none => (.error agentNotFound, s)
  | some agent =>
    let agents := s.db.agents.insert agent_id { agent with is_active := false }
    (.ok .none, { s with db := { s.db with agents } })

/-- `list_agents`. -/
def listAgents (admin : Admin) (db : Accounts) : List AgentResponse :=
  (newestRows Agent.created_at (db.agents.select fun agent => agent.admin_id = admin.id)).map .ofRow

/-- `get_agent`. -/
def getAgent (admin : Admin) (agent_id : Uuid) (db : Accounts) : Except HTTPException Data :=
  (ownAgent db admin agent_id).elim (.error agentNotFound) fun agent => .ok (.agent (.ofRow agent))

/-! ### Bots -/

/-- `list_bots`. -/
def listBots (admin : Admin) (db : Accounts) : List BotListResponse :=
  (newestRows AccountBot.created_at (db.bots.select fun bot => bot.admin_id = admin.id)).map
    fun bot =>
      { id := bot.id, name := bot.name, is_active := bot.is_active, created_at := bot.created_at }

/-- `get_bot`. -/
def getBot (admin : Admin) (bot_id : Uuid) (db : Accounts) : Except HTTPException Data :=
  (ownBot db admin bot_id).elim (.error botNotFound) fun bot => .ok (.bot bot)

/-- `regenerate_bot_key`, with the `generate_api_key()` of the call. -/
def regenerateBotKey (P : Columns) (admin : Admin) (bot_id : Uuid) (api_key : String) (s : Site) :
    Except HTTPException Data × Site :=
  match ownBot s.db admin bot_id with
  | none => (.error botNotFound, s)
  | some bot =>
    if (s.db.bots.select fun b => b.id ≠ bot_id && b.api_key = api_key).isEmpty then
      match s.db.bots.store bot_id { bot with api_key } P.bot with
      | none => (.error internalServerError, s)
      | some bots => (.ok (.bot { bot with api_key }), { s with db := { s.db with bots } })
    else (.error internalServerError, s)

/-! ### The dashboard -/

/-- The bots as the history routes see them. -/
def Accounts.botList (db : Accounts) : List Bot :=
  (db.bots.select fun _ => true).map fun bot =>
    { id := bot.id.str, admin_id := bot.admin_id.str, api_key := bot.api_key
      is_active := bot.is_active }

/-- The live chats of the admin's bots. -/
def adminChats (E : Backend) (admin : Admin) (db : Accounts) : List (Dict String) :=
  let bot_ids := getAdminBotIds db.botList admin.id.str
  (E.tracker.getAllOnlineChats 0 10000 true).filter fun c =>
    (c.lookup "bot_id").any (· ∈ bot_ids)

/-- `dashboard_stats`. -/
def dashboardStats (E : Backend) (admin : Admin) (db : Accounts) : DashboardStats where
  online_chats := (adminChats E admin db).length
  online_agents := (E.agents_status.filter fun a => a.status = "online").length
  total_agents := E.agents_status.length
  queued_chats := 0

/-- `xs[i:j]`. -/
def slice {α : Type} (xs : List α) (i j : ℤ) : List α :=
  let at_ (k : ℤ) : ℕ := (if k < 0 then k + xs.length else k).toNat
  (xs.take (at_ j)).drop (at_ i)

/-- `dashboard_active_chats`. -/
def dashboardActiveChats (E : Backend) (admin : Admin) (offset limit : ℤ) (db : Accounts) : Data :=
  .activeChats (adminChats E admin db).length
    (slice (adminChats E admin db) offset (offset + limit))

/-! ### Conversations -/

/-- The rows of a partition of `conversations_by_bot`, by the rest of the key. -/
def botPartition (db : Database Table) (bot_id : String) : List Cell → Option Row :=
  fun rest => db .conversationsByBot (.text bot_id :: rest)

/-- `c.last_message_at or datetime.min`, in milliseconds. -/
def ConversationResponse.sortKey (c : ConversationResponse) : ℤ :=
  match c.last_message_at with
  | some (.timestamp ms) => ms
  | _ => -62135596800000

/-- The loop over the bots. -/
def collectConversations (scan : (List Cell → Option Row) → List Row) (db : Database Table)
    (limit : ℕ) (bot_ids : List String) : List ConversationResponse :=
  bot_ids.flatMap fun bid => ((scan (botPartition db bid)).take limit).map .ofRow

/-- `conversations.sort(key=.., reverse=True)`, which keeps equal elements in order. -/
def newestFirst (cs : List ConversationResponse) : List ConversationResponse :=
  cs.insertionSort fun c d => d.sortKey ≤ c.sortKey

/-- `list_conversations`. The query parameter `status` is not used. -/
def listConversations (scan : (List Cell → Option Row) → List Row) (bots : List Bot)
    (admin_id : String) (db : Database Table) (_status bot_id : Option String) (limit : ℕ) :
    Response (List ConversationResponse) :=
  let bot_ids := getAdminBotIds bots admin_id
  if bot_ids.isEmpty then .ok []
  else match truthy bot_id with
    | some bot_id =>
      if bot_id ∉ bot_ids then .forbidden
      else .ok ((newestFirst (collectConversations scan db limit [bot_id])).take limit)
    | none => .ok ((newestFirst (collectConversations scan db limit bot_ids)).take limit)

/-- A response, with the texts of the route. -/
def Response.toExcept {α : Type} (forbidden : String) (f : α → Data) :
    Response α → Except HTTPException Data
  | .ok data => .ok (f data)
  | .notFound => .error ⟨404, "Conversation not found"⟩
  | .forbidden => .error ⟨403, forbidden⟩

/-! ### Routes -/

/-- The routes of `agents`, `bots` and `dashboard`. -/
inductive AdminRoute where
  | createAgent (id : Uuid) (salt : String) (created_at : ℤ) (body : AgentCreate)
  | listAgents
  | getAgent (agent_id : Uuid)
  | updateAgent (agent_id : Uuid) (body : AgentUpdate)
  | deleteAgent (agent_id : Uuid)
  | createBot (id : Uuid) (api_key : String) (created_at : ℤ) (body : BotCreate)
  | listBots
  | getBot (bot_id : Uuid)
  | updateBot (bot_id : Uuid) (body : BotUpdate)
  | deleteBot (bot_id : Uuid)
  | regenerateBotKey (bot_id : Uuid) (api_key : String)
  | dashboardStats
  | dashboardAgents
  | dashboardActiveChats (offset limit : ℤ)

/-- `Query(50, ge=1, le=200)`. -/
abbrev PageLimit : Type := {n : ℕ // 1 ≤ n ∧ n ≤ 200}

/-- The routes of `conversations`. -/
inductive ConversationRoute where
  | listConversations (status bot_id : Option String) (limit : PageLimit)
  | getConversation (conversation_id : String)
  | getMessages (conversation_id : String) (bucket : Option String) (limit : PageLimit)

inductive Route where
  | admin (r : AdminRoute)
  | conversations (r : ConversationRoute)
  | wsDashboard

section Requests

variable {Token : Type} (C : Crypto Token) (P : Columns) (E : Backend)

/-- The `response_model` of a route. -/
def asData {α : Type} (f : α → Data) (r : Except HTTPException α × Site) :
    Except HTTPException Data × Site :=
  (r.1.map f, r.2)

/-- The handler of a route that has its admin. -/
def AdminRoute.handle (admin : Admin) (r : AdminRoute) (s : Site) :
    Except HTTPException Data × Site :=
  match r with
  | .createAgent id salt created_at body =>
    TitanChat.createAgent P admin id (C.hashPassword salt body.password) created_at body s
  | .listAgents => (.ok (.agents (TitanChat.listAgents admin s.db)), s)
  | .getAgent agent_id => (TitanChat.getAgent admin agent_id s.db, s)
  | .updateAgent agent_id body => TitanChat.updateAgent P admin agent_id body s
  | .deleteAgent agent_id => TitanChat.deleteAgent admin agent_id s
  | .createBot id api_key created_at body =>
    asData .bot (TitanChat.createBot P admin id api_key created_at body s)
  | .listBots => (.ok (.bots (TitanChat.listBots admin s.db)), s)
  | .getBot bot_id => (TitanChat.getBot admin bot_id s.db, s)
  | .updateBot bot_id body => asData .bot (TitanChat.updateBot P admin bot_id body s)
  | .deleteBot bot_id => asData (fun _ => .none) (TitanChat.deleteBot admin bot_id s)
  | .regenerateBotKey bot_id api_key => TitanChat.regenerateBotKey P admin bot_id api_key s
  | .dashboardStats => (.ok (.stats (TitanChat.dashboardStats E admin s.db)), s)
  | .dashboardAgents => (.ok (.agentsStatus E.agents_status), s)
  | .dashboardActiveChats offset limit =>
    (.ok (TitanChat.dashboardActiveChats E admin offset limit s.db), s)

/-- The handler of a route that has its scope. -/
def ConversationRoute.handle (admin_id : Uuid) (r : ConversationRoute) (db : Accounts) :
    Except HTTPException Data :=
  match r with
  | .listConversations status bot_id limit =>
    (TitanChat.listConversations E.scan db.botList admin_id.str E.cassandra status bot_id
      limit.1).toExcept "Bot does not belong to your account" .conversations
  | .getConversation conversation_id =>
    (TitanChat.getConversation db.botList admin_id.str E.cassandra conversation_id).toExcept
      "Not authorized to view this conversation" .conversation
  | .getMessages conversation_id bucket limit =>
    (TitanChat.getMessages E.scan E.now db.botList admin_id.str E.cassandra conversation_id bucket
      limit.1).toExcept "Not authorized" .messages

/-- `ws_dashboard`, up to the loop. The codes are those of `websocket.close`. -/
def wsDashboard (now : ℤ) (token : Authorization Token) : Except HTTPException Data :=
  match token with
  | .other => .error ⟨4001, "Missing token"⟩
  | .bearer token =>
    match C.decode now token with
    | .error _ => .error ⟨4001, "Invalid or expired token"⟩
    | .ok payload =>
      let subscribe (admin_id : Option String) : Except HTTPException Data :=
        match truthy admin_id with
        | none => .error ⟨4001, "Cannot resolve admin_id from token"⟩
        | some admin_id => .ok (.subscribed ("admin:" ++ admin_id ++ ":feed"))
      if payload.role = "admin" then subscribe (some payload.user_id)
      else if payload.role = "agent" then subscribe payload.admin_id
      else .error ⟨4003, "Unauthorized role"⟩

/-- A request with its token; `commits` says whether its commit goes through. -/
def respondWith (commits : Bool) (now : ℤ) (token : Authorization Token) (route : Route)
    (s : Site) : Except HTTPException Data × Site :=
  match route with
  | .admin r =>
    getDb commits (fun s =>
      match (getCurrentUser C now token).bind (getCurrentAdmin s.db) with
      | .error e => (.error e, s)
      | .ok admin => r.handle C P E admin s) s
  | .conversations r =>
    getDb commits (fun s =>
      match (getCurrentUser C now token).bind getAdminIdFromUser with
      | .error e => (.error e, s)
      | .ok admin_id => (r.handle E admin_id s.db, s)) s
  | .wsDashboard => (wsDashboard C now token, s)

/-- A request whose commit goes through. -/
def respond (now : ℤ) (token : Authorization Token) (route : Route) (s : Site) :
    Except HTTPException Data × Site :=
  respondWith C P E true now token route s

end Requests

/-! ### What happens to the accounts -/

/-- Every row is stored under its identifier. -/
structure Keyed (db : Accounts) : Prop where
  admins : ∀ id admin, db.admins.lookup id = some admin → admin.id = id
  agents : ∀ id agent, db.agents.lookup id = some agent → agent.id = id

/-- At most one row is written, and an agent stays with its admin. -/
structure Changes (db db' : Accounts) : Prop where
  admins : db'.admins = db.admins ∨
    ∃ admin, db'.admins = db.admins.insert admin.id admin
  agents : db'.agents = db.agents ∨
    ∃ agent, db'.agents = db.agents.insert agent.id agent ∧
      ∀ old, db.agents.lookup agent.id = some old → agent.admin_id = old.admin_id

theorem Changes.refl (db : Accounts) : Changes db db := ⟨.inl rfl, .inl rfl⟩

theorem Changes.of_eq {db db' : Accounts} (hadmins : db'.admins = db.admins)
    (hagents : db'.agents = db.agents) : Changes db db' :=
  ⟨.inl hadmins, .inl hagents⟩

theorem Changes.keyed {db db' : Accounts} (h : Changes db db') (hk : Keyed db) : Keyed db' := by
  constructor
  · intro id admin hrow
    rcases h.admins with heq | ⟨new, heq⟩
    · exact hk.admins id admin (heq ▸ hrow)
    · rw [heq] at hrow
      by_cases hid : id = new.id
      · rw [hid, AList.lookup_insert, Option.some.injEq] at hrow
        rw [hid, hrow]
      · rw [AList.lookup_insert_ne hid] at hrow
        exact hk.admins id admin hrow
  · intro id agent hrow
    rcases h.agents with heq | ⟨new, heq, -⟩
    · exact hk.agents id agent (heq ▸ hrow)
    · rw [heq] at hrow
      by_cases hid : id = new.id
      · rw [hid, AList.lookup_insert, Option.some.injEq] at hrow
        rw [hid, hrow]
      · rw [AList.lookup_insert_ne hid] at hrow
        exact hk.agents id agent hrow

/-- An account keeps its tenant. -/
theorem Changes.tenant {db db' : Accounts} (h : Changes db db') {account : Account} {t : Uuid}
    (ht : account.tenant db = some t) : account.tenant db' = some t := by
  cases account with
  | admin id =>
    obtain ⟨admin, hrow, rfl⟩ := Option.map_eq_some_iff.mp ht
    rcases h.admins with heq | ⟨new, heq⟩
    · rw [Account.tenant, heq, hrow, Option.map_some]
    · by_cases hid : id = new.id
      · rw [Account.tenant, heq, hid, AList.lookup_insert, Option.map_some]
      · rw [Account.tenant, heq, AList.lookup_insert_ne hid, hrow, Option.map_some]
  | agent id =>
    obtain ⟨agent, hrow, rfl⟩ := Option.map_eq_some_iff.mp ht
    rcases h.agents with heq | ⟨new, heq, hadmin⟩
    · rw [Account.tenant, heq, hrow, Option.map_some]
    · by_cases hid : id = new.id
      · rw [Account.tenant, heq, hid, AList.lookup_insert, Option.map_some,
          hadmin agent (hid ▸ hrow)]
      · rw [Account.tenant, heq, AList.lookup_insert_ne hid, hrow, Option.map_some]

/-- A request changes what its handler changes, or nothing. -/
theorem changes_getDb {α : Type} {commits : Bool} {handler : Site → Except HTTPException α × Site}
    {s : Site} (h : Changes s.db (handler s).2.db) :
    Changes s.db (getDb commits handler s).2.db := by
  rw [getDb]
  split
  · exact .refl s.db
  · next hok =>
    split
    · rw [hok] at h
      exact h
    · exact .refl s.db

theorem eq_of_ownAgent {db : Accounts} {admin : Admin} {id : Uuid} {agent : Agent}
    (h : ownAgent db admin id = some agent) : db.agents.lookup id = some agent :=
  (Option.filter_eq_some_iff.mp h).1

section Handlers

variable {Token : Type} {C : Crypto Token} {P : Columns} {E : Backend} {s : Site}

theorem changes_createAgent (admin : Admin) (id : Uuid) (password_hash : String) (created_at : ℤ)
    (body : AgentCreate) :
    Changes s.db (createAgent P admin id password_hash created_at body s).2.db := by
  rw [createAgent]
  split
  · exact .refl s.db
  · dsimp only
    split
    · exact .refl s.db
    · next agents hadd =>
      obtain ⟨hfree, rfl⟩ := Rows.notMem_of_add hadd
      refine ⟨.inl rfl, .inr ⟨newAgent admin id password_hash created_at body, rfl,
        fun old hold => ?_⟩⟩
      exact absurd (AList.lookup_isSome.mp (Option.isSome_of_eq_some hold)) hfree

/-- Writing a row of an agent that is there, with another name or another flag. -/
theorem changes_insert (hk : Keyed s.db) {id : Uuid} {agent agent' : Agent}
    (hrow : s.db.agents.lookup id = some agent) (hid : agent'.id = agent.id)
    (hadmin : agent'.admin_id = agent.admin_id) :
    Changes s.db { s.db with agents := s.db.agents.insert id agent' } := by
  have hkey : agent'.id = id := hid.trans (hk.agents id agent hrow)
  refine ⟨.inl rfl, .inr ⟨agent', ?_, fun old hold => ?_⟩⟩
  · rw [hkey]
  · rw [hkey, hrow] at hold
    rw [hadmin, Option.some.inj hold]

theorem changes_updateAgent (hk : Keyed s.db) (admin : Admin) (id : Uuid) (body : AgentUpdate) :
    Changes s.db (updateAgent P admin id body s).2.db := by
  rw [updateAgent]
  split
  · exact .refl s.db
  · next agent hown =>
    by_cases hfits : P.agent (body.apply agent) = true
    · simp only [Rows.store, hfits, if_true]
      exact changes_insert hk (eq_of_ownAgent hown) rfl rfl
    · simp only [Rows.store, hfits, Bool.false_eq_true, if_false]
      exact .refl s.db

theorem changes_deleteAgent (hk : Keyed s.db) (admin : Admin) (id : Uuid) :
    Changes s.db (deleteAgent admin id s).2.db := by
  rw [deleteAgent]
  split
  · exact .refl s.db
  · next agent hown => exact changes_insert hk (eq_of_ownAgent hown) rfl rfl

/-- The routes of the bots leave the accounts alone. -/
theorem changes_bots {bots : Rows AccountBot} : Changes s.db { s.db with bots } := .of_eq rfl rfl

theorem changes_handle (hk : Keyed s.db) (admin : Admin) (r : AdminRoute) :
    Changes s.db (r.handle C P E admin s).2.db := by
  cases r with
  | createAgent id salt created_at body => exact changes_createAgent admin id _ created_at body
  | updateAgent id body => exact changes_updateAgent hk admin id body
  | deleteAgent id => exact changes_deleteAgent hk admin id
  | createBot id api_key created_at body =>
    simp only [AdminRoute.handle, asData, createBot]
    split
    · exact .refl s.db
    · exact changes_bots
  | updateBot id body =>
    simp only [AdminRoute.handle, asData, updateBot]
    split
    · exact .refl s.db
    · split
      · exact .refl s.db
      · exact changes_bots
  | deleteBot id =>
    simp only [AdminRoute.handle, asData, deleteBot]
    split
    · exact .refl s.db
    · exact changes_bots
  | regenerateBotKey id api_key =>
    simp only [AdminRoute.handle, regenerateBotKey]
    split
    · exact .refl s.db
    · split
      · split
        · exact .refl s.db
        · exact changes_bots
      · exact .refl s.db
  | listAgents | getAgent | listBots | getBot | dashboardStats | dashboardAgents
  | dashboardActiveChats => exact .refl s.db

/-- **No route removes an account or moves an agent to another admin.** -/
theorem changes_respondWith (hk : Keyed s.db) (commits : Bool) (now : ℤ)
    (token : Authorization Token) (route : Route) :
    Changes s.db (respondWith C P E commits now token route s).2.db := by
  cases route with
  | admin r =>
    refine changes_getDb ?_
    split
    · exact .refl s.db
    · exact changes_handle hk _ r
  | conversations r =>
    refine changes_getDb ?_
    split
    · exact .refl s.db
    · exact .refl s.db
  | wsDashboard => exact .refl s.db

end Handlers

end TitanChat
