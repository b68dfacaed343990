import TitanChat.Deactivation
import TitanChat.Ownership
import TitanChat.Internal.Tables

/-!
# What a request does to the accounts

A request writes at most one row of one table, and a request that fails writes none. What the row
may be is said once, by `Edit.Allowed`, for each of the seven kinds of writes that there are, and
for the two that remain in Redis when a request is rolled back. What holds of the accounts over
whole runs then follows from these nine.

## The tables are sound

Every handler asks PostgreSQL for *the* row with an email, an identifier or a key, by
`scalar_one_or_none`, which raises for two of them. That it never does is not a matter of one
handler: an email is looked up before it is inserted, a key is not, and a regenerated key is written
over a row. `Integrity` has what they rely on, and `integrity_of_run` proves it of every state.

The registry of bots is outside the transaction. A `create_bot` that is rolled back leaves the entry
of a bot that is not there, and nothing removes it. Such an entry names an admin, and no other than
the owner if a bot of that identifier is ever added; that each entry is of a bot takes that all
commits go through (`Registered`).

## Main definitions

* `Edit`, `Edit.write`, `Edit.Allowed`: the writes
* `Integrity`: the tables and the registry of bots agree, and what is unique is so
* `Registered`: the registry has no bot that is not there
* `scalarOneOrNone`: a query for one row

## Main results

* `edits_of_step`: one step is one of these writes
* `integrity_of_run`: in every state
-/

namespace TitanChat

open Tables

/-! ### Who a step acts for -/

/-- Who a step acts for, and what it brings along. -/
structure Caller where
  /-- The admin that a request to a route of the admins is let in as. -/
  admin : Option Admin
  /-- The `generate_api_key()` of the request. -/
  api_key : Option String
  /-- The account that is registered, or switched on or off. -/
  account : Option Uuid
  /-- The step is not rolled back. -/
  commits : Bool

/-- The `generate_api_key()` of a route. -/
def AdminRoute.generates : AdminRoute → Option String
  | .createBot _ api_key _ _ | .regenerateBotKey _ api_key => some api_key
  | _ => none

def ApiStep.commits {Token : Type} : ApiStep Token → Bool
  | .uncommitted _ _ _ => false
  | _ => true

/-- Who a request acts for. -/
def Route.caller {Token : Type} (C : Crypto Token) (s : Api Token) (token : Authorization Token)
    (commits : Bool) : Route → Caller
  | .admin r => {
      admin := ((getCurrentUser C s.now token).bind (getCurrentAdmin s.site.db)).toOption
      api_key := r.generates
      account := none
      commits }
  | .conversations _ | .wsDashboard => ⟨none, none, none, commits⟩

def ApiStep.caller {Token : Type} (C : Crypto Token) (s : Api Token) : ApiStep Token → Caller
  | .adminRegister id _ _ | .setAdminActive id _ => ⟨none, none, some id, true⟩
  | .request _ token route => route.caller C s token true
  | .uncommitted _ token route => route.caller C s token false
  | .advance _ | .adminLogin _ | .agentLogin _ => ⟨none, none, none, true⟩

theorem commits_caller {Token : Type} {C : Crypto Token} {s : Api Token} (x : ApiStep Token) :
    (x.caller C s).commits = x.commits := by
  cases x with
  | request E token route | uncommitted E token route => cases route <;> rfl
  | advance | adminRegister | adminLogin | agentLogin | setAdminActive => rfl

/-! ### The writes -/

/-- What a request does to the tables and to the registry. -/
inductive Edit where
  | nothing
  | admin (row : Admin)
  | agent (row : Agent)
  | bot (row : AccountBot) (redis : String → Option String)
  | registry (redis : String → Option String)

/-- The row is stored under its identifier. -/
def Edit.write (s : Site) : Edit → Site
  | nothing => s
  | admin row => { s with db := { s.db with admins := s.db.admins.insert row.id row } }
  | agent row => { s with db := { s.db with agents := s.db.agents.insert row.id row } }
  | bot row redis => { db := { s.db with bots := s.db.bots.insert row.id row }, redis }
  | registry redis => { s with redis }

/-- The writes that a step can make. -/
inductive Edit.Allowed (s : Site) (c : Caller) : Edit → Prop
  | nothing : Allowed s c .nothing
  | register (row : Admin) (haccount : c.account = some row.id) (hnew : row.id ∉ s.db.admins)
      (hemail : Unused Admin.email s.db.admins row.email) : Allowed s c (.admin row)
  | switch (old : Admin) (is_active : Bool) (haccount : c.account = some old.id)
      (hold : s.db.admins.lookup old.id = some old) :
      Allowed s c (.admin { old with is_active })
  | createAgent (by_ : Admin) (row : Agent) (hby : c.admin = some by_)
      (hadmin : s.db.admins.lookup by_.id = some by_) (howner : row.admin_id = by_.id)
      (hnew : row.id ∉ s.db.agents) (hemail : Unused Agent.email s.db.agents row.email)
      (hmax : 1 ≤ row.max_chats ∧ row.max_chats ≤ 20) : Allowed s c (.agent row)
  | changeAgent (by_ : Admin) (old : Agent) (name : String) (skills : List String) (max_chats : ℤ)
      (is_active : Bool) (hby : c.admin = some by_) (howner : old.admin_id = by_.id)
      (hold : s.db.agents.lookup old.id = some old)
      (hmax : max_chats = old.max_chats ∨ 1 ≤ max_chats ∧ max_chats ≤ 20) :
      Allowed s c (.agent { old with name, skills, max_chats, is_active })
  | createBot (by_ : Admin) (row : AccountBot) (hby : c.admin = some by_)
      (hadmin : s.db.admins.lookup by_.id = some by_) (howner : row.admin_id = by_.id)
      (hnew : row.id ∉ s.db.bots) (hkey : Unused AccountBot.api_key s.db.bots row.api_key)
      (hgenerated : c.api_key = some row.api_key) :
      Allowed s c (.bot row (cacheBotMapping s.redis row.id.str by_.id.str))
  | changeBot (by_ : Admin) (old : AccountBot) (name : String) (config : Dict Json)
      (is_active : Bool) (redis : String → Option String) (hby : c.admin = some by_)
      (howner : old.admin_id = by_.id) (hold : s.db.bots.lookup old.id = some old)
      (hredis : redis = s.redis ∨ redis = invalidateBotMapping s.redis old.id.str) :
      Allowed s c (.bot { old with name, config, is_active } redis)
  | regenerateBotKey (by_ : Admin) (old : AccountBot) (key : String) (hby : c.admin = some by_)
      (howner : old.admin_id = by_.id) (hold : s.db.bots.lookup old.id = some old)
      (hkey : ∀ id bot, s.db.bots.lookup id = some bot → bot.api_key = key → id = old.id)
      (hgenerated : c.api_key = some key) :
      Allowed s c (.bot { old with api_key := key } s.redis)
  /-- `create_bot`, rolled back. -/
  | cacheOnly (by_ : Admin) (id : Uuid) (hcommits : c.commits = false) (hby : c.admin = some by_)
      (hadmin : s.db.admins.lookup by_.id = some by_) (hnew : id ∉ s.db.bots) :
      Allowed s c (.registry (cacheBotMapping s.redis id.str by_.id.str))
  /-- `delete_bot`, rolled back. -/
  | invalidateOnly (by_ : Admin) (old : AccountBot) (hcommits : c.commits = false)
      (hby : c.admin = some by_) (howner : old.admin_id = by_.id)
      (hold : s.db.bots.lookup old.id = some old) :
      Allowed s c (.registry (invalidateBotMapping s.redis old.id.str))

/-- What is left behind by a handler: an error and nothing else, or a write. -/
def Writes {α : Type} (c : Caller) (s : Site) (r : Except HTTPException α × Site) : Prop :=
  (∃ e, r.1 = .error e) ∧ r.2 = s ∨
    (∃ a, r.1 = .ok a) ∧ ∃ e : Edit, e.Allowed s c ∧ r.2 = e.write s

/-! ### Soundness -/

/-- **The tables and the registry are sound.** -/
structure Integrity (s : Site) : Prop where
  adminId : Each (fun id admin => admin.id = id) s.db.admins
  agentId : Each (fun id agent => agent.id = id) s.db.agents
  botId : Each (fun id bot => bot.id = id) s.db.bots
  adminEmail : UniqueOn Admin.email s.db.admins
  agentEmail : UniqueOn Agent.email s.db.agents
  apiKey : UniqueOn AccountBot.api_key s.db.bots
  /-- The foreign keys. -/
  agentOwner : Each (fun _ agent => agent.admin_id ∈ s.db.admins) s.db.agents
  botOwner : Each (fun _ bot => bot.admin_id ∈ s.db.admins) s.db.bots
  /-- The range of `AgentCreate` and `AgentUpdate`. -/
  maxChats : Each (fun _ agent => 1 ≤ agent.max_chats ∧ agent.max_chats ≤ 20) s.db.agents
  /-- The registry has identifiers of bots with admins, and names no admin but the owner of a bot
  that is there. -/
  registry : ∀ b a : String, s.redis (botKey b) = some a →
    ∃ id owner : Uuid, id.str = b ∧ owner.str = a ∧ owner ∈ s.db.admins ∧
      ∀ bot, s.db.bots.lookup id = some bot → bot.admin_id = owner

/-- **Each entry of the registry is of a bot**, and names its owner. -/
def Registered (s : Site) : Prop :=
  ∀ b a : String, s.redis (botKey b) = some a →
    ∃ bot, s.db.bots.lookup bot.id = some bot ∧ bot.id.str = b ∧ bot.admin_id.str = a

/-! ### What the routes write -/

/-- A row that is there is the old one. -/
theorem eq_of_lookup {α : Type} {rows : Rows α} {id : Uuid} {p : α → Prop} {old : α}
    (hold : rows.lookup id = some old) (h : p old) : ∀ row, rows.lookup id = some row → p row := by
  intro row hrow
  obtain rfl := Option.some.inj (hold.symm.trans hrow)
  exact h

/-- A row that is not there. -/
theorem forall_of_notMem {α : Type} {rows : Rows α} {id : Uuid} {p : α → Prop} (h : id ∉ rows) :
    ∀ row, rows.lookup id = some row → p row := by
  intro row hrow
  exact absurd (AList.lookup_isSome.mp (Option.isSome_of_eq_some hrow)) h

section Handlers

variable {α β : Type} {Token : Type} {C : Crypto Token} {P : Columns} {E : Backend} {s : Site}
  {c : Caller}

theorem writes_error (e : HTTPException) :
    Writes c s ((.error e, s) : Except HTTPException α × Site) :=
  Or.inl ⟨⟨e, rfl⟩, rfl⟩

theorem writes_ok {e : Edit} (he : e.Allowed s c) (a : α) :
    Writes c s ((.ok a, e.write s) : Except HTTPException α × Site) :=
  Or.inr ⟨⟨a, rfl⟩, e, he, rfl⟩

/-- Nothing is written, whatever the response is. -/
theorem writes_read (r : Except HTTPException α) : Writes c s (r, s) := by
  cases r with
  | error e => exact writes_error e
  | ok a => exact writes_ok .nothing a

theorem Writes.asData {r : Except HTTPException α × Site} (h : Writes c s r)
    (f : α → Data) : Writes c s (TitanChat.asData f r) := by
  obtain ⟨r, s'⟩ := r
  rcases h with ⟨⟨e, rfl⟩, hs⟩ | ⟨⟨a, rfl⟩, he⟩
  · exact Or.inl ⟨⟨e, rfl⟩, hs⟩
  · exact Or.inr ⟨⟨f a, rfl⟩, he⟩

/-- What a rollback leaves of a write: what was done to Redis. -/
theorem Edit.Allowed.rolledBack {e : Edit} (hc : c.commits = false) (he : e.Allowed s c) :
    ∃ e' : Edit, e'.Allowed s c ∧ { s with redis := (e.write s).redis } = e'.write s := by
  cases he with
  | nothing | register | switch | createAgent | changeAgent | regenerateBotKey =>
    exact ⟨.nothing, .nothing, rfl⟩
  | createBot by_ row hby hadmin howner hnew hkey hgenerated =>
    exact ⟨_, .cacheOnly by_ row.id hc hby hadmin hnew, rfl⟩
  | changeBot by_ old name config is_active redis hby howner hold hredis =>
    rcases hredis with rfl | rfl
    · exact ⟨.nothing, .nothing, rfl⟩
    · exact ⟨_, .invalidateOnly by_ old hc hby howner hold, rfl⟩
  | cacheOnly by_ id _ hby hadmin hnew => exact ⟨_, .cacheOnly by_ id hc hby hadmin hnew, rfl⟩
  | invalidateOnly by_ old _ hby howner hold =>
    exact ⟨_, .invalidateOnly by_ old hc hby howner hold, rfl⟩

theorem Writes.edits {r : Except HTTPException α × Site} (h : Writes c s r) :
    ∃ e : Edit, e.Allowed s c ∧ r.2 = e.write s := by
  rcases h with ⟨-, heq⟩ | ⟨-, he⟩
  · exact ⟨.nothing, .nothing, heq⟩
  · exact he

/-- A handler that has written nothing when it raises needs no rollback. -/
theorem Writes.getDb {handler : Site → Except HTTPException α × Site}
    (h : Writes c s (handler s)) :
    Writes c s (TitanChat.getDb true handler s) := by
  rw [TitanChat.getDb]
  split
  · next e s' heq =>
    rw [heq] at h
    rcases h with ⟨-, rfl⟩ | ⟨⟨a, ha⟩, -⟩
    · exact writes_error e
    · cases ha
  · next heq =>
    rw [if_pos rfl, ← heq]
    exact h

/-- **A request**, committed or rolled back. -/
theorem Writes.edits_getDb {handler : Site → Except HTTPException α × Site}
    (h : Writes c s (handler s)) :
    ∃ e : Edit, e.Allowed s c ∧ (TitanChat.getDb c.commits handler s).2 = e.write s := by
  cases hc : c.commits with
  | true => exact h.getDb.edits
  | false =>
    obtain ⟨e, he, heq⟩ := h.edits
    obtain ⟨e', he', heq'⟩ := he.rolledBack hc
    refine ⟨e', he', Eq.trans ?_ heq'⟩
    rw [TitanChat.getDb, ← heq]
    split
    · next hr => rw [hr]
    · next hr => rw [hr]; rfl

/-- What a flush of a new row has checked. -/
theorem Rows.unused_of_add {rows rows' : Rows α} {key : Uuid} {row : α} {unique : α → String}
    {fits : α → Bool} (h : rows.add key row unique fits = some rows') :
    Unused unique rows (unique row) := by
  intro i a hi hua
  unfold Rows.add at h
  split at h
  · cases h
  · next hfree =>
    simp only [Bool.or_eq_true, not_or, Bool.not_eq_true', Bool.not_eq_false,
      List.isEmpty_iff] at hfree
    have hmem : a ∈ rows.select fun r => unique r = unique row :=
      List.mem_filter.mpr ⟨mem_map_entries.mpr ⟨i, hi⟩, decide_eq_true hua⟩
    rw [hfree.1.2] at hmem
    exact List.not_mem_nil hmem

variable {a : Admin} (hc : c.admin = some a)
include hc

theorem writes_createAgent (ha : s.db.admins.lookup a.id = some a) (id : Uuid)
    (password_hash : String) (created_at : ℤ) (body : AgentCreate) :
    Writes c s (createAgent P a id password_hash created_at body s) := by
  rw [createAgent]
  split
  · exact writes_error _
  · dsimp only
    split
    · exact writes_error _
    · next agents hadd =>
      obtain ⟨hnew, rfl⟩ := Rows.notMem_of_add hadd
      have hemail := Rows.unused_of_add hadd
      exact writes_ok (.createAgent a (newAgent a id password_hash created_at body) hc ha rfl hnew
        hemail body.max_chats_range) _

theorem writes_createBot (ha : s.db.admins.lookup a.id = some a) (id : Uuid)
    (key : String) (hkey : c.api_key = some key) (created_at : ℤ) (body : BotCreate) :
    Writes c s (createBot P a id key created_at body s) := by
  rw [createBot]
  dsimp only
  split
  · exact writes_error _
  · next bots hadd =>
    obtain ⟨hnew, rfl⟩ := Rows.notMem_of_add hadd
    have hunused := Rows.unused_of_add hadd
    exact writes_ok (.createBot a (newBot a id key created_at body) hc ha rfl hnew hunused hkey) _

variable (hs : Integrity s)
include hs

theorem writes_updateAgent (agent_id : Uuid) (body : AgentUpdate) :
    Writes c s (updateAgent P a agent_id body s) := by
  rw [updateAgent]
  split
  · exact writes_error _
  · next agent hown =>
    obtain ⟨hold, howner⟩ := Option.filter_eq_some_iff.mp hown
    obtain rfl := hs.agentId agent_id agent hold
    have hmax : (body.apply agent).max_chats = agent.max_chats ∨
        1 ≤ (body.apply agent).max_chats ∧ (body.apply agent).max_chats ≤ 20 := by
      cases hn : body.max_chats with
      | none => exact Or.inl (by rw [AgentUpdate.apply, hn]; rfl)
      | some n => exact Or.inr (by rw [AgentUpdate.apply, hn]; exact body.max_chats_range n hn)
    by_cases hfits : P.agent (body.apply agent) = true
    · simp only [Rows.store, hfits, if_true]
      exact writes_ok (.changeAgent a agent _ _ _ _ hc (of_decide_eq_true howner) hold hmax) _
    · simp only [Rows.store, hfits, Bool.false_eq_true, if_false]
      exact writes_error _

theorem writes_deleteAgent (agent_id : Uuid) :
    Writes c s (deleteAgent a agent_id s) := by
  rw [deleteAgent]
  split
  · exact writes_error _
  · next agent hown =>
    obtain ⟨hold, howner⟩ := Option.filter_eq_some_iff.mp hown
    obtain rfl := hs.agentId agent_id agent hold
    exact writes_ok (.changeAgent a agent agent.name agent.skills agent.max_chats false hc
      (of_decide_eq_true howner) hold (Or.inl rfl)) _

theorem writes_updateBot (bot_id : Uuid) (body : BotUpdate) :
    Writes c s (updateBot P a bot_id body s) := by
  rw [updateBot]
  split
  · exact writes_error _
  · next bot hown =>
    obtain ⟨hold, howner⟩ := Option.filter_eq_some_iff.mp hown
    obtain rfl := hs.botId bot_id bot hold
    by_cases hfits : P.bot (body.apply bot) = true
    · simp only [Rows.store, hfits, if_true]
      exact writes_ok (.changeBot a bot (body.apply bot).name (body.apply bot).config
        (body.apply bot).is_active s.redis hc (of_decide_eq_true howner) hold (Or.inl rfl)) _
    · simp only [Rows.store, hfits, Bool.false_eq_true, if_false]
      exact writes_error _

theorem writes_deleteBot (bot_id : Uuid) :
    Writes c s (deleteBot a bot_id s) := by
  rw [deleteBot]
  split
  · exact writes_error _
  · next bot hown =>
    obtain ⟨hold, howner⟩ := Option.filter_eq_some_iff.mp hown
    obtain rfl := hs.botId bot_id bot hold
    exact writes_ok (.changeBot a bot bot.name bot.config false _ hc (of_decide_eq_true howner)
      hold (Or.inr rfl)) _

theorem writes_regenerateBotKey (bot_id : Uuid) (key : String) (hkey : c.api_key = some key) :
    Writes c s (regenerateBotKey P a bot_id key s) := by
  rw [regenerateBotKey]
  split
  · exact writes_error _
  · next bot hown =>
    obtain ⟨hold, howner⟩ := Option.filter_eq_some_iff.mp hown
    obtain rfl := hs.botId bot_id bot hold
    split
    · next hfree =>
      have hunused (id : Uuid) (other : AccountBot) (hother : s.db.bots.lookup id = some other)
          (heq : other.api_key = key) : id = bot.id := by
        by_contra hne
        have hmem : other ∈ s.db.bots.select fun b => b.id ≠ bot.id && b.api_key = key :=
          List.mem_filter.mpr ⟨mem_map_entries.mpr ⟨id, hother⟩,
            by simp [hs.botId id other hother, hne, heq]⟩
        rw [List.isEmpty_iff.mp hfree] at hmem
        exact List.not_mem_nil hmem
      by_cases hfits : P.bot { bot with api_key := key } = true
      · simp only [Rows.store, hfits, if_true]
        exact writes_ok (.regenerateBotKey a bot key hc (of_decide_eq_true howner) hold hunused
          hkey) _
      · simp only [Rows.store, hfits, Bool.false_eq_true, if_false]
        exact writes_error _
    · exact writes_error _

theorem writes_handle (ha : s.db.admins.lookup a.id = some a) (r : AdminRoute)
    (hr : c.api_key = r.generates) : Writes c s (r.handle C P E a s) := by
  cases r with
  | createAgent id salt created_at body => exact writes_createAgent hc ha id _ created_at body
  | updateAgent agent_id body => exact writes_updateAgent hc hs agent_id body
  | deleteAgent agent_id => exact writes_deleteAgent hc hs agent_id
  | createBot id key created_at body =>
    exact (writes_createBot hc ha id key hr created_at body).asData _
  | updateBot bot_id body => exact (writes_updateBot hc hs bot_id body).asData _
  | deleteBot bot_id => exact (writes_deleteBot hc hs bot_id).asData _
  | regenerateBotKey bot_id key => exact writes_regenerateBotKey hc hs bot_id key hr
  | getAgent | getBot => exact writes_read _
  | listAgents | listBots | dashboardStats | dashboardAgents | dashboardActiveChats =>
    exact writes_ok .nothing _

end Handlers

/-! ### One step -/

theorem exists_of_bind_eq_ok {ε α β : Type} {x : Except ε α} {f : α → Except ε β} {b : β}
    (h : x.bind f = .ok b) : ∃ a, x = .ok a ∧ f a = .ok b := by
  cases x with
  | error e => cases h
  | ok a => exact ⟨a, rfl, h⟩

/-- Who is let in has a row. -/
theorem lookup_of_getCurrentAdmin {db : Accounts} {user : Claims} {a : Admin}
    (h : getCurrentAdmin db user = .ok a) :
    ∃ id, Uuid.parse user.user_id = some id ∧ db.admins.lookup id = some a := by
  rw [getCurrentAdmin] at h
  split at h
  · cases h
  · split at h
    · cases h
    · next id hid =>
      split at h
      · cases h
      · next admin hrow =>
        split at h
        · exact ⟨id, hid, hrow.trans (congrArg some (Except.ok.inj h))⟩
        · cases h

section Steps

variable {Token : Type} {C : Crypto Token} {P : Columns} {s s' : Api Token}

theorem writes_adminRegister (now : ℤ) (site : Site) (id : Uuid) (salt : String)
    (body : AdminRegister) :
    Writes ⟨none, none, some id, true⟩ site (adminRegister C P now id salt body site) := by
  rw [adminRegister]
  split
  · exact writes_error _
  · split
    · exact writes_error _
    · next admins hadd =>
      obtain ⟨hnew, rfl⟩ := Rows.notMem_of_add hadd
      have hemail := Rows.unused_of_add hadd
      exact writes_ok (.register (newAdmin C id salt body) rfl hnew hemail) _

theorem edits_respondWith (hs : Integrity s.site) (E : Backend) (token : Authorization Token)
    (commits : Bool) (route : Route) :
    ∃ e : Edit, e.Allowed s.site (route.caller C s token commits) ∧
      (respondWith C P E commits s.now token route s.site).2 = e.write s.site := by
  cases route with
  | admin r =>
    refine Writes.edits_getDb (c := Route.caller C s token commits (.admin r)) ?_
    rw [Route.caller]
    cases ha : (getCurrentUser C s.now token).bind (getCurrentAdmin s.site.db) with
    | error e => exact writes_error e
    | ok a =>
      obtain ⟨user, -, hadmin⟩ := exists_of_bind_eq_ok ha
      obtain ⟨id, -, hrow⟩ := lookup_of_getCurrentAdmin hadmin
      obtain rfl := hs.adminId id a hrow
      exact writes_handle rfl hs hrow r rfl
  | conversations r =>
    refine Writes.edits_getDb (c := Route.caller C s token commits (.conversations r)) ?_
    split
    · exact writes_error _
    · exact writes_read _
  | wsDashboard => exact ⟨.nothing, .nothing, rfl⟩

/-- **One step** is one of the writes. -/
theorem edits_of_step (hs : Integrity s.site) {x : ApiStep Token}
    (h : Api.step C P s x = some s') :
    ∃ e : Edit, e.Allowed s.site (x.caller C s) ∧ s'.site = e.write s.site := by
  cases x with
  | advance now =>
    rw [Api.step] at h
    split at h
    · obtain rfl := Option.some.inj h
      exact ⟨.nothing, .nothing, rfl⟩
    · cases h
  | adminRegister id salt body =>
    obtain rfl := Option.some.inj h
    exact (writes_adminRegister s.now s.site id salt body).getDb.edits
  | adminLogin body | agentLogin body =>
    obtain rfl := Option.some.inj h
    exact ⟨.nothing, .nothing, rfl⟩
  | setAdminActive id is_active =>
    obtain rfl := Option.some.inj h
    dsimp only
    rw [setAdminActive]
    split
    · exact ⟨.nothing, .nothing, rfl⟩
    · next admin hrow =>
      obtain rfl := hs.adminId id admin hrow
      exact ⟨_, .switch admin is_active rfl hrow, rfl⟩
  | request E token route | uncommitted E token route =>
    obtain rfl := Option.some.inj h
    exact edits_respondWith hs E token _ route

end Steps

/-! ### Every state -/

section Writing

variable {s : Site} {c : Caller}

theorem Integrity.writeAdmin (hs : Integrity s) {row : Admin}
    (hemail : UniqueOn Admin.email (s.db.admins.insert row.id row)) :
    Integrity (Edit.write s (.admin row)) where
  adminId := hs.adminId.insert rfl
  agentId := hs.agentId
  botId := hs.botId
  adminEmail := hemail
  agentEmail := hs.agentEmail
  apiKey := hs.apiKey
  agentOwner i agent h := (AList.mem_insert _).mpr (Or.inr (hs.agentOwner i agent h))
  botOwner i bot h := (AList.mem_insert _).mpr (Or.inr (hs.botOwner i bot h))
  maxChats := hs.maxChats
  registry b a h := by
    obtain ⟨id, owner, hid, ha, hmem, hbot⟩ := hs.registry b a h
    exact ⟨id, owner, hid, ha, (AList.mem_insert _).mpr (Or.inr hmem), hbot⟩

theorem Integrity.writeAgent (hs : Integrity s) {row : Agent}
    (hemail : UniqueOn Agent.email (s.db.agents.insert row.id row))
    (howner : row.admin_id ∈ s.db.admins) (hmax : 1 ≤ row.max_chats ∧ row.max_chats ≤ 20) :
    Integrity (Edit.write s (.agent row)) where
  adminId := hs.adminId
  agentId := hs.agentId.insert rfl
  botId := hs.botId
  adminEmail := hs.adminEmail
  agentEmail := hemail
  apiKey := hs.apiKey
  agentOwner := hs.agentOwner.insert howner
  botOwner := hs.botOwner
  maxChats := hs.maxChats.insert hmax
  registry := hs.registry

/-- The registry after a write of a bot: its entry is its owner's, and the others are as before. -/
structure RegistersBot (s : Site) (row : AccountBot) (redis : String → Option String) : Prop where
  own : ∀ a, redis (botKey row.id.str) = some a → row.admin_id.str = a
  others : ∀ b, b ≠ row.id.str → redis (botKey b) = s.redis (botKey b)

theorem Integrity.writeBot (hs : Integrity s) {row : AccountBot} {redis : String → Option String}
    (hkey : UniqueOn AccountBot.api_key (s.db.bots.insert row.id row))
    (howner : row.admin_id ∈ s.db.admins) (hredis : RegistersBot s row redis) :
    Integrity (Edit.write s (.bot row redis)) where
  adminId := hs.adminId
  agentId := hs.agentId
  botId := hs.botId.insert rfl
  adminEmail := hs.adminEmail
  agentEmail := hs.agentEmail
  apiKey := hkey
  agentOwner := hs.agentOwner
  botOwner := hs.botOwner.insert howner
  maxChats := hs.maxChats
  registry b a h := by
    by_cases hb : b = row.id.str
    · subst hb
      refine ⟨row.id, row.admin_id, rfl, hredis.own a h, howner, fun bot hbot => ?_⟩
      rw [Option.some.inj (hbot.symm.trans (AList.lookup_insert _))]
    · obtain ⟨id, owner, rfl, ha, hmem, hbot⟩ :=
        hs.registry b a ((hredis.others b hb).symm.trans h)
      have hid : id ≠ row.id := fun heq => hb (congrArg Uuid.str heq)
      exact ⟨id, owner, rfl, ha, hmem, fun bot hrow =>
        hbot bot ((AList.lookup_insert_ne hid).symm.trans hrow)⟩

theorem Integrity.writeRegistry (hs : Integrity s) (id : Uuid) {redis : String → Option String}
    (hself : ∀ a, redis (botKey id.str) = some a → ∃ owner : Uuid, owner.str = a ∧
      owner ∈ s.db.admins ∧ ∀ bot, s.db.bots.lookup id = some bot → bot.admin_id = owner)
    (hother : ∀ b, b ≠ id.str → redis (botKey b) = s.redis (botKey b)) :
    Integrity (Edit.write s (.registry redis)) where
  adminId := hs.adminId
  agentId := hs.agentId
  botId := hs.botId
  adminEmail := hs.adminEmail
  agentEmail := hs.agentEmail
  apiKey := hs.apiKey
  agentOwner := hs.agentOwner
  botOwner := hs.botOwner
  maxChats := hs.maxChats
  registry b a h := by
    by_cases hb : b = id.str
    · subst hb
      obtain ⟨owner, howner⟩ := hself a h
      exact ⟨id, owner, rfl, howner⟩
    · exact hs.registry b a ((hother b hb).symm.trans h)

/-- What the registry has of a bot that is there is its owner. -/
theorem Integrity.owner (hs : Integrity s) {bot : AccountBot}
    (hold : s.db.bots.lookup bot.id = some bot) {a : String}
    (h : s.redis (botKey bot.id.str) = some a) : bot.admin_id.str = a := by
  obtain ⟨id, owner, hid, howner, -, hbot⟩ := hs.registry bot.id.str a h
  obtain rfl := Uuid.str_injective hid
  rw [hbot bot hold]
  exact howner

theorem registersBot_of_allowed {row : AccountBot} {redis : String → Option String}
    (hs : Integrity s) (he : Edit.Allowed s c (.bot row redis)) : RegistersBot s row redis := by
  cases he with
  | createBot by_ _ hby hadmin howner hnew hkey hgenerated =>
    refine ⟨fun a h => ?_, fun b hb => cacheBotMapping_of_ne hb⟩
    rw [cacheBotMapping_self, Option.some.injEq] at h
    rw [howner, h]
  | changeBot by_ old name config is_active _ hby howner hold hredis =>
    rcases hredis with rfl | rfl
    · exact ⟨fun a h => hs.owner hold h, fun _ _ => rfl⟩
    · exact ⟨fun a h => by simp at h, fun b hb => invalidateBotMapping_of_ne hb⟩
  | regenerateBotKey by_ old key hby howner hold hkey hgenerated =>
    exact ⟨fun a h => hs.owner hold h, fun _ _ => rfl⟩

/-- **Each write** keeps the tables sound. -/
theorem Integrity.write {e : Edit} (hs : Integrity s) (he : e.Allowed s c) :
    Integrity (e.write s) := by
  have hredis (row : AccountBot) (redis : String → Option String) (heq : e = .bot row redis) :
      RegistersBot s row redis := registersBot_of_allowed hs (heq ▸ he)
  cases he with
  | nothing => exact hs
  | register row haccount hnew hemail => exact hs.writeAdmin (hs.adminEmail.insert_unused hemail)
  | switch old is_active haccount hold => exact hs.writeAdmin (hs.adminEmail.insert_same hold rfl)
  | createAgent by_ row hby hadmin howner hnew hemail hmax =>
    refine hs.writeAgent (hs.agentEmail.insert_unused hemail) ?_ hmax
    rw [howner]
    exact AList.lookup_isSome.mp (Option.isSome_of_eq_some hadmin)
  | changeAgent by_ old name skills max_chats is_active hby howner hold hmax =>
    refine hs.writeAgent (hs.agentEmail.insert_same hold rfl) (hs.agentOwner _ old hold) ?_
    rcases hmax with heq | hrange
    · exact heq ▸ hs.maxChats _ old hold
    · exact hrange
  | createBot by_ row hby hadmin howner hnew hkey hgenerated =>
    refine hs.writeBot (hs.apiKey.insert_unused hkey) ?_ (hredis _ _ rfl)
    rw [howner]
    exact AList.lookup_isSome.mp (Option.isSome_of_eq_some hadmin)
  | changeBot by_ old name config is_active redis hby howner hold _ =>
    exact hs.writeBot (hs.apiKey.insert_same hold rfl) (hs.botOwner _ old hold) (hredis _ _ rfl)
  | regenerateBotKey by_ old key hby howner hold hkey hgenerated =>
    exact hs.writeBot (hs.apiKey.insert hkey) (hs.botOwner _ old hold) (hredis _ _ rfl)
  | cacheOnly by_ id hcommits hby hadmin hnew =>
    refine hs.writeRegistry id (fun a h => ?_) fun b hb => cacheBotMapping_of_ne hb
    rw [cacheBotMapping_self, Option.some.injEq] at h
    exact ⟨by_.id, h, AList.lookup_isSome.mp (Option.isSome_of_eq_some hadmin),
      forall_of_notMem hnew⟩
  | invalidateOnly by_ old hcommits hby howner hold =>
    refine hs.writeRegistry old.id (fun a h => ?_) fun b hb => invalidateBotMapping_of_ne hb
    simp at h

/-- **Each write** that is not rolled back keeps the registry to the bots. -/
theorem Registered.write {e : Edit} (hr : Registered s) (hs : Integrity s) (he : e.Allowed s c)
    (hcommits : c.commits = true) : Registered (e.write s) := by
  cases e with
  | nothing | admin | agent => exact hr
  | bot row redis =>
    have hredis := registersBot_of_allowed hs he
    intro b a h
    by_cases hb : b = row.id.str
    · subst hb
      exact ⟨row, AList.lookup_insert _, rfl, hredis.own a h⟩
    · obtain ⟨bot, hbot, rfl, hadmin⟩ := hr b a ((hredis.others b hb).symm.trans h)
      have hid : bot.id ≠ row.id := fun heq => hb (congrArg Uuid.str heq)
      exact ⟨bot, (AList.lookup_insert_ne hid).trans hbot, rfl, hadmin⟩
  | registry redis =>
    cases he with
    | cacheOnly by_ id hrolled => exact absurd (hrolled.symm.trans hcommits) Bool.false_ne_true
    | invalidateOnly by_ old hrolled =>
      exact absurd (hrolled.symm.trans hcommits) Bool.false_ne_true

theorem integrity_empty : Integrity Site.empty where
  adminId := each_empty
  agentId := each_empty
  botId := each_empty
  adminEmail := uniqueOn_empty
  agentEmail := uniqueOn_empty
  apiKey := uniqueOn_empty
  agentOwner := each_empty
  botOwner := each_empty
  maxChats := each_empty
  registry _ _ h := nomatch h

theorem registered_empty : Registered Site.empty := fun _ _ h => nomatch h

end Writing

/-! ### Queries for one row -/

/-- `scalar_one_or_none` of the rows of a query; `none` when it raises `MultipleResultsFound`. -/
def scalarOneOrNone {α : Type} : List α → Option (Option α)
  | [] => some none
  | [a] => some (some a)
  | _ :: _ :: _ => none

/-- The queries of `auth`, `agents`, `bots`, `deps` and `bot_auth` for one row: none of them raises,
and each has the row that the handlers work with. -/
structure Unambiguous (db : Accounts) : Prop where
  admin : ∀ email, scalarOneOrNone (db.admins.select fun r => r.email = email) =
    some (adminOf db email)
  agent : ∀ email, scalarOneOrNone (db.agents.select fun r => r.email = email) =
    some (agentOf db email)
  current : ∀ id, scalarOneOrNone (db.admins.select fun r => r.id = id) =
    some (db.admins.lookup id)
  ownAgent : ∀ (a : Admin) id,
    scalarOneOrNone (db.agents.select fun r => decide (r.id = id) && decide (r.admin_id = a.id)) =
      some (ownAgent db a id)
  ownBot : ∀ (a : Admin) id,
    scalarOneOrNone (db.bots.select fun r => decide (r.id = id) && decide (r.admin_id = a.id)) =
      some (ownBot db a id)
  apiKey : ∀ api_key,
    scalarOneOrNone (db.botList.filter fun bot => bot.api_key = api_key && bot.is_active) =
      some (validateBotApiKey db.botList api_key)

theorem scalarOneOrNone_eq {α : Type} {l : List α} (h : l.length ≤ 1) :
    scalarOneOrNone l = some l.head? := by
  match l, h with
  | [], _ | [_], _ => rfl
  | _ :: _ :: _, h => simp at h

/-- Two active bots have different keys. -/
theorem Integrity.length_botList_le {s : Site} (hs : Integrity s) (api_key : String) :
    (s.db.botList.filter fun bot => bot.api_key = api_key && bot.is_active).length ≤ 1 := by
  rw [Accounts.botList, List.filter_map, List.length_map, Rows.select, List.filter_filter]
  exact hs.apiKey.length_filter_le (x := api_key) (by simp +contextual)

theorem Integrity.unambiguous {s : Site} (hs : Integrity s) : Unambiguous s.db where
  admin email := scalarOneOrNone_eq (hs.adminEmail.length_filter_le (x := email) (by simp))
  agent email := scalarOneOrNone_eq (hs.agentEmail.length_filter_le (x := email) (by simp))
  current id := by
    have hle := hs.adminId.uniqueOn.length_filter_le (q := fun r => r.id = id) (x := id) (by simp)
    have hhead := hs.adminId.head?_filter id fun _ => true
    simp only [Bool.and_true] at hhead
    rw [Rows.select, scalarOneOrNone_eq hle, hhead]
    cases s.db.admins.lookup id <;> rfl
  ownAgent a id := by
    rw [Rows.select, scalarOneOrNone_eq, hs.agentId.head?_filter, TitanChat.ownAgent]
    exact hs.agentId.uniqueOn.length_filter_le (x := id) (by simp +contextual)
  ownBot a id := by
    rw [Rows.select, scalarOneOrNone_eq, hs.botId.head?_filter, TitanChat.ownBot]
    exact hs.botId.uniqueOn.length_filter_le (x := id) (by simp +contextual)
  apiKey api_key := by
    rw [scalarOneOrNone_eq (hs.length_botList_le api_key), validateBotApiKey, List.head?_filter]

theorem Integrity.step {Token : Type} {C : Crypto Token} {P : Columns} {s s' : Api Token}
    (hs : Integrity s.site) {x : ApiStep Token} (h : Api.step C P s x = some s') :
    Integrity s'.site := by
  obtain ⟨e, he, heq⟩ := edits_of_step hs h
  exact heq ▸ hs.write he

theorem Registered.step {Token : Type} {C : Crypto Token} {P : Columns} {s s' : Api Token}
    (hr : Registered s.site) (hs : Integrity s.site) {x : ApiStep Token}
    (hcommits : x.commits = true) (h : Api.step C P s x = some s') : Registered s'.site := by
  obtain ⟨e, he, heq⟩ := edits_of_step hs h
  exact heq ▸ hr.write hs he ((commits_caller x).trans hcommits)

theorem integrity_of_reachable {Token : Type} {C : Crypto Token} {P : Columns} {s : Api Token}
    (h : Api.Reachable C P s) : Integrity s.site := by
  refine h.invariant (I := fun s => Integrity s.site) ?_ fun _ _ _ hs hstep => hs.step hstep
  rintro _ ⟨now, rfl⟩
  exact integrity_empty

/-- **In every state** that a run of requests reaches, whatever becomes of their commits, the tables
are sound, and no query for one row finds two. If all commits go through, each entry of the registry
is of a bot. -/
theorem integrity_of_run {Token : Type} {C : Crypto Token} {P : Columns} {now : ℤ} {s : Api Token}
    {schedule : List (ApiStep Token)}
    (hr : Transition.run (Api.step C P) (.empty now) schedule = some s) :
    Integrity s.site ∧ Unambiguous s.site.db ∧
      ((∀ x ∈ schedule, x.commits = true) → Registered s.site) := by
  have hs := integrity_of_reachable (Api.reachable_of_run hr)
  refine ⟨hs, hs.unambiguous, fun hcommits => ?_⟩
  have hguarded : Transition.Guarded (Api.step C P) (fun _ x => x.commits = true) (.empty now)
      schedule := Transition.guarded_of_forall (fun x hx _ => hcommits x hx) _
  have hstep (s : Api Token) (x : ApiStep Token) (s' : Api Token)
      (hi : Integrity s.site ∧ Registered s.site) (hx : x.commits = true)
      (h : Api.step C P s x = some s') : Integrity s'.site ∧ Registered s'.site :=
    ⟨hi.1.step h, hi.2.step hi.1 hx h⟩
  exact ((Transition.always_of_guarded hstep ⟨integrity_empty, registered_empty⟩ hguarded).run hr).2

/-! ### A run -/

section Runs

def sampleAgentId : Uuid := ⟨"33333333-3333-4333-8333-333333333333", by decide⟩

/-- A request of the admin. -/
def sampleRequest (r : AdminRoute) : ApiStep Claims :=
  .request quietBackend (.bearer sampleClaims) (.admin r)

/-- An admin registers and adds a bot and an agent. -/
def settingUp : List (ApiStep Claims) :=
  [.adminRegister sampleAdmin.id "salt" ⟨"admin@example.com", "first password", "owner", by decide,
      by decide⟩,
    sampleRequest (.createBot sampleBotId "key" 0 ⟨"widget", ∅, by decide⟩),
    sampleRequest (.createAgent sampleAgentId "salt" 0 ⟨"agent@example.com", "second password",
      "agent", ["billing"], 5, by decide, by decide, by decide⟩)]

/-- The run, to its end. -/
def setUp : Option (Api Claims) :=
  Transition.run (Api.step plainCrypto anyColumns) (.empty 0) settingUp

theorem integrity_of_run_setUp : ∃ s, setUp = some s ∧
    (Integrity s.site ∧ Unambiguous s.site.db) ∧ Registered s.site ∧
      validateBotApiKey s.site.db.botList "key" =
        some ⟨sampleBotId.str, sampleAdmin.id.str, "key", true⟩ := by
  have hr : setUp = some (setUp.get rfl) := (Option.some_get _).symm
  obtain ⟨hs, hone, hregistered⟩ := integrity_of_run hr
  exact ⟨_, hr, ⟨hs, hone⟩, hregistered (by decide), rfl⟩

/-- The bot is added, and the request is rolled back. -/
def rolledBack : List (ApiStep Claims) :=
  settingUp.take 1 ++ [.uncommitted quietBackend (.bearer sampleClaims)
    (.admin (.createBot sampleBotId "key" 0 ⟨"widget", ∅, by decide⟩))]

/-- Its entry remains. -/
example : (Transition.run (Api.step plainCrypto anyColumns) (.empty 0) rolledBack).map (fun s =>
    (s.site.redis (botKey sampleBotId.str), (s.site.db.bots.lookup sampleBotId).isSome)) =
      some (some sampleAdmin.id.str, false) := rfl

end Runs

end TitanChat
