import TitanChat.Accounts
import TitanChat.Internal.Transition

/-!
# The registry of bots

The live feed of an admin needs the owner of a bot for each event, and
`shared/cache/bot_registry.py` keeps it in Redis: `create_bot` sets the key of the bot and
`delete_bot` removes it. The registry is a copy of what PostgreSQL knows about active bots, made
outside the transaction of the request: it is written before the commit, and `update_bot`, which can
switch a bot off and on again, does not touch it.

## Main definitions

* `getAdminIdForBot`, `publishAdminEvent`: the readers of the registry
* `createBot`, `updateBot`, `deleteBot`: the routes of `api/routers/bots.py`
* `BotCoherent`: the registry and the feed agree with PostgreSQL
* `BotCall.Covered`: the condition on a request

## Main results

* `step_coherent_iff`: one request, exactly
* `coherent_iff_covered`: a sequence of requests
-/

namespace TitanChat

/-! ### The registry and the feed -/

/-- `_key`. -/
def botKey (bot_id : String) : String := "bot:" ++ bot_id ++ ":admin_id"

def cacheBotMapping (redis : String → Option String) (bot_id admin_id : String) :
    String → Option String :=
  Function.update redis (botKey bot_id) (some admin_id)

def invalidateBotMapping (redis : String → Option String) (bot_id : String) :
    String → Option String :=
  Function.update redis (botKey bot_id) none

def getAdminIdForBot (redis : String → Option String) (bot_id : String) : Option String :=
  if bot_id = "" then none else redis (botKey bot_id)

/-- A message on a PubSub channel. -/
structure Publication where
  channel : String
  message : Dict Json

/-- `publish_admin_event`; `none` when the event is dropped. The payload comes last in the
message. -/
def publishAdminEvent (redis : String → Option String) (now : ℤ) (bot_id event_type : String)
    (payload : Dict Json) : Option Publication :=
  if bot_id = "" then none
  else match getAdminIdForBot redis bot_id with
    | none => none
    | some admin_id =>
      if admin_id = "" then none
      else some {
        channel := "admin:" ++ admin_id ++ ":feed"
        message := payload ∪ ([⟨"event", .str event_type⟩, ⟨"ts", .int now⟩,
          ⟨"bot_id", .str bot_id⟩] : List (Σ _ : String, Json)).toAList }

theorem botKey_injective : Function.Injective botKey := by
  intro a b h
  simpa [botKey, String.ext_iff] using h

@[simp] theorem cacheBotMapping_self (redis : String → Option String) (b a : String) :
    cacheBotMapping redis b a (botKey b) = some a := Function.update_self ..

@[simp] theorem invalidateBotMapping_self (redis : String → Option String) (b : String) :
    invalidateBotMapping redis b (botKey b) = none := Function.update_self ..

theorem cacheBotMapping_of_ne {redis : String → Option String} {b b' a : String} (h : b' ≠ b) :
    cacheBotMapping redis b a (botKey b') = redis (botKey b') :=
  Function.update_of_ne (botKey_injective.ne h) ..

theorem invalidateBotMapping_of_ne {redis : String → Option String} {b b' : String}
    (h : b' ≠ b) : invalidateBotMapping redis b (botKey b') = redis (botKey b') :=
  Function.update_of_ne (botKey_injective.ne h) ..

/-! ### The routes -/

structure BotCreate where
  name : String
  config : Dict Json
  name_size : 1 ≤ name.length ∧ name.length ≤ 255

structure BotUpdate where
  name : Option String
  config : Option (Dict Json)
  is_active : Option Bool

/-- The bot of the path, if the admin owns it. -/
def ownBot (db : Accounts) (admin : Admin) (bot_id : Uuid) : Option AccountBot :=
  (db.bots.lookup bot_id).filter fun bot => bot.admin_id = admin.id

def botNotFound : HTTPException := ⟨404, "Bot not found"⟩

/-- The row that `create_bot` adds, with the `uuid.uuid4()`, the `generate_api_key()` and the
`func.now()` of the call. -/
def newBot (admin : Admin) (id : Uuid) (api_key : String) (created_at : ℤ) (body : BotCreate) :
    AccountBot where
  id := id
  admin_id := admin.id
  name := body.name
  api_key := api_key
  config := body.config
  is_active := true
  created_at := created_at

/-- `create_bot`. -/
def createBot (P : Columns) (admin : Admin) (id : Uuid) (api_key : String) (created_at : ℤ)
    (body : BotCreate) (s : Site) : Except HTTPException AccountBot × Site :=
  let bot := newBot admin id api_key created_at body
  match s.db.bots.add id bot AccountBot.api_key P.bot with
  | none => (.error internalServerError, s)
  | some bots =>
    (.ok bot, { db := { s.db with bots }, redis := cacheBotMapping s.redis id.str admin.id.str })

/-- The fields of the body that are set. -/
def BotUpdate.apply (body : BotUpdate) (bot : AccountBot) : AccountBot :=
  { bot with
    name := body.name.getD bot.name
    config := body.config.getD bot.config
    is_active := body.is_active.getD bot.is_active }

/-- `update_bot`. -/
def updateBot (P : Columns) (admin : Admin) (bot_id : Uuid) (body : BotUpdate) (s : Site) :
    Except HTTPException AccountBot × Site :=
  match ownBot s.db admin bot_id with
  | none => (.error botNotFound, s)
  | some bot =>
    match s.db.bots.store bot_id (body.apply bot) P.bot with
    | none => (.error internalServerError, s)
    | some bots => (.ok (body.apply bot), { s with db := { s.db with bots } })

/-- `delete_bot`. The values of the row have been stored before. -/
def deleteBot (admin : Admin) (bot_id : Uuid) (s : Site) : Except HTTPException Unit × Site :=
  match ownBot s.db admin bot_id with
  | none => (.error botNotFound, s)
  | some bot =>
    let bots := s.db.bots.insert bot_id { bot with is_active := false }
    (.ok (), { db := { s.db with bots }, redis := invalidateBotMapping s.redis bot_id.str })

/-! ### Sequences of requests -/

inductive BotRequest where
  | create (id : Uuid) (api_key : String) (created_at : ℤ) (body : BotCreate)
  | update (bot_id : Uuid) (body : BotUpdate)
  | delete (bot_id : Uuid)

/-- A request of an admin, and whether its commit goes through. -/
structure BotCall where
  admin : Admin
  request : BotRequest
  commits : Bool

/-- The state after a request. -/
def BotCall.perform (P : Columns) (s : Site) (c : BotCall) : Site :=
  match c.request with
  | .create id api_key created_at body =>
    (getDb c.commits (createBot P c.admin id api_key created_at body) s).2
  | .update bot_id body => (getDb c.commits (updateBot P c.admin bot_id body) s).2
  | .delete bot_id => (getDb c.commits (deleteBot c.admin bot_id) s).2

/-- Every request is possible in every state. -/
def BotCall.step (P : Columns) (s : Site) (c : BotCall) : Option Site := some (c.perform P s)

/-! ### Coherence -/

/-- The row of a bot that is active. -/
def activeBot (db : Accounts) (id : Uuid) : Option AccountBot :=
  (db.bots.lookup id).filter AccountBot.is_active

/-- **Bot cache coherence.** -/
structure BotCoherent (s : Site) : Prop where
  /-- The key of a bot has the value `a` if and only if the bot is active and owned by `a`. -/
  key : ∀ (id : Uuid) (a : String), s.redis (botKey id.str) = some a ↔
    ∃ bot, activeBot s.db id = some bot ∧ bot.admin_id.str = a
  /-- The events of a bot reach the feed of an admin exactly while the bot is active and owned by
  the admin. -/
  delivers : ∀ (id : Uuid) (now : ℤ) (event_type : String) (payload : Dict Json) (a : Uuid),
    (∃ message, publishAdminEvent s.redis now id.str event_type payload =
        some ⟨"admin:" ++ a.str ++ ":feed", message⟩) ↔
      ∃ bot, activeBot s.db id = some bot ∧ bot.admin_id = a

/-- The keys of the registry are those of the active bots. -/
def Mirrors (s : Site) : Prop :=
  ∀ id : Uuid, s.redis (botKey id.str) = (activeBot s.db id).map fun bot => bot.admin_id.str

theorem publishAdminEvent_of_mirrors {s : Site} (h : Mirrors s) (id : Uuid) (now : ℤ)
    (event_type : String) (payload : Dict Json) :
    (publishAdminEvent s.redis now id.str event_type payload).map Publication.channel =
      (activeBot s.db id).map fun bot => "admin:" ++ bot.admin_id.str ++ ":feed" := by
  simp only [publishAdminEvent, getAdminIdForBot, Uuid.str_ne_empty, if_false, h id]
  cases activeBot s.db id <;> simp

/-- The feed follows the registry. -/
theorem coherent_iff_mirrors {s : Site} : BotCoherent s ↔ Mirrors s := by
  constructor
  · intro h id
    refine Option.ext fun a => ?_
    rw [h.key id a, Option.map_eq_some_iff]
  · intro h
    refine ⟨fun id a => ?_, fun id now event_type payload a => ?_⟩
    · rw [h id, Option.map_eq_some_iff]
    · have hchannel := publishAdminEvent_of_mirrors h id now event_type payload
      constructor
      · rintro ⟨message, hm⟩
        rw [hm, Option.map_some, eq_comm, Option.map_eq_some_iff] at hchannel
        obtain ⟨bot, hbot, heq⟩ := hchannel
        refine ⟨bot, hbot, Uuid.str_injective ?_⟩
        simpa [String.ext_iff] using heq
      · rintro ⟨bot, hbot, rfl⟩
        rw [hbot, Option.map_some, Option.map_eq_some_iff] at hchannel
        obtain ⟨⟨channel, message⟩, hm, rfl⟩ := hchannel
        exact ⟨message, hm⟩

/-! ### One request -/

/-- What a request must be, so that the registry follows it. -/
def BotCall.Covered (P : Columns) (s : Site) (c : BotCall) : Prop :=
  match c.request with
  | .create id api_key created_at body =>
    -- the row can be added: then the transaction must commit
    (s.db.bots.add id (newBot c.admin id api_key created_at body) AccountBot.api_key
      P.bot).isSome → c.commits = true
  | .update bot_id body =>
    -- a change that commits does not switch the bot on or off
    ∀ bot, ownBot s.db c.admin bot_id = some bot → P.bot (body.apply bot) = true →
      c.commits = true → (body.apply bot).is_active = bot.is_active
  | .delete bot_id =>
    -- the bot was active: then the transaction must commit
    ∀ bot, ownBot s.db c.admin bot_id = some bot → bot.is_active = true → c.commits = true

theorem activeBot_insert (db : Accounts) (id : Uuid) (bot : AccountBot) :
    activeBot { db with bots := db.bots.insert id bot } id =
      if bot.is_active then some bot else none := by
  rw [activeBot, AList.lookup_insert, Option.filter_some]

theorem activeBot_insert_of_ne {db : Accounts} {id id' : Uuid} {bot : AccountBot} (h : id' ≠ id) :
    activeBot { db with bots := db.bots.insert id bot } id' = activeBot db id' := by
  rw [activeBot, AList.lookup_insert_ne h, activeBot]

theorem lookup_of_ownBot {db : Accounts} {admin : Admin} {id : Uuid} {bot : AccountBot}
    (h : ownBot db admin id = some bot) : db.bots.lookup id = some bot :=
  (Option.filter_eq_some_iff.mp h).1

theorem activeBot_of_ownBot {db : Accounts} {admin : Admin} {id : Uuid} {bot : AccountBot}
    (h : ownBot db admin id = some bot) :
    activeBot db id = if bot.is_active then some bot else none := by
  rw [activeBot, lookup_of_ownBot h, Option.filter_some]

/-- A request is about one bot: the others are as before. -/
theorem mirrors_iff_at {s s' : Site} (h : Mirrors s) (id : Uuid)
    (hredis : ∀ id', id' ≠ id → s'.redis (botKey id'.str) = s.redis (botKey id'.str))
    (hactive : ∀ id', id' ≠ id → activeBot s'.db id' = activeBot s.db id') :
    Mirrors s' ↔
      s'.redis (botKey id.str) = (activeBot s'.db id).map fun bot => bot.admin_id.str := by
  refine ⟨fun h' => h' id, fun hid id' => ?_⟩
  by_cases heq : id' = id
  · rw [heq, hid]
  · rw [hredis id' heq, hactive id' heq, h id']

theorem str_ne {id id' : Uuid} (h : id' ≠ id) : id'.str ≠ id.str := Uuid.str_injective.ne h

/-- `create_bot` writes the key before the commit. -/
theorem mirrors_create_iff {P : Columns} {s : Site} (h : Mirrors s) (commits : Bool)
    (admin : Admin) (id : Uuid) (api_key : String) (created_at : ℤ) (body : BotCreate) :
    Mirrors (getDb commits (createBot P admin id api_key created_at body) s).2 ↔
      ((s.db.bots.add id (newBot admin id api_key created_at body) AccountBot.api_key
        P.bot).isSome → commits = true) := by
  rw [getDb, createBot]
  cases hadd : s.db.bots.add id (newBot admin id api_key created_at body) AccountBot.api_key
      P.bot with
  | none => simpa using h
  | some bots =>
    obtain ⟨hfree, rfl⟩ := Rows.notMem_of_add hadd
    have hnone : activeBot s.db id = none := by
      rw [activeBot, AList.lookup_eq_none.mpr hfree, Option.filter_none]
    cases commits with
    | false =>
      refine (mirrors_iff_at h id ?_ ?_).trans ?_
      · exact fun id' hne => cacheBotMapping_of_ne (str_ne hne)
      · exact fun _ _ => rfl
      · simp [hnone]
    | true =>
      refine (mirrors_iff_at h id ?_ ?_).trans ?_
      · exact fun id' hne => cacheBotMapping_of_ne (str_ne hne)
      · exact fun id' hne => activeBot_insert_of_ne hne
      · simp [activeBot_insert, newBot]

/-- `update_bot` does not write the key. -/
theorem mirrors_update_iff {P : Columns} {s : Site} (h : Mirrors s) (commits : Bool)
    (admin : Admin) (id : Uuid) (body : BotUpdate) :
    Mirrors (getDb commits (updateBot P admin id body) s).2 ↔
      ∀ bot, ownBot s.db admin id = some bot → P.bot (body.apply bot) = true →
        commits = true → (body.apply bot).is_active = bot.is_active := by
  rw [getDb, updateBot]
  cases hown : ownBot s.db admin id with
  | none => simpa using h
  | some bot =>
    by_cases hfits : P.bot (body.apply bot) = true
    · cases commits with
      | false => simpa [Rows.store, hfits] using h
      | true =>
        have hid := h id
        rw [activeBot_of_ownBot hown] at hid
        simp only [Rows.store, hfits, if_true]
        refine (mirrors_iff_at h id ?_ ?_).trans ?_
        · exact fun _ _ => rfl
        · exact fun id' hne => activeBot_insert_of_ne hne
        · rw [hid, activeBot_insert]
          have howner : (body.apply bot).admin_id = bot.admin_id := rfl
          cases hb : bot.is_active <;> cases hb' : (body.apply bot).is_active <;>
            simp [hfits, hb, hb', howner]
    · simpa [Rows.store, hfits] using h

/-- `delete_bot` removes the key before the commit. -/
theorem mirrors_delete_iff {s : Site} (h : Mirrors s) (commits : Bool) (admin : Admin)
    (id : Uuid) :
    Mirrors (getDb commits (deleteBot admin id) s).2 ↔
      ∀ bot, ownBot s.db admin id = some bot → bot.is_active = true → commits = true := by
  rw [getDb, deleteBot]
  cases hown : ownBot s.db admin id with
  | none => simpa using h
  | some bot =>
    cases commits with
    | false =>
      refine (mirrors_iff_at h id ?_ ?_).trans ?_
      · exact fun id' hne => invalidateBotMapping_of_ne (str_ne hne)
      · exact fun _ _ => rfl
      · simp only [invalidateBotMapping_self, Bool.false_eq_true, if_false,
          activeBot_of_ownBot hown]
        cases hb : bot.is_active <;> simp [hb]
    | true =>
      refine (mirrors_iff_at h id ?_ ?_).trans ?_
      · exact fun id' hne => invalidateBotMapping_of_ne (str_ne hne)
      · exact fun id' hne => activeBot_insert_of_ne hne
      · simp [activeBot_insert]

/-- **One request, exactly.** -/
theorem step_coherent_iff {P : Columns} {s s' : Site} {c : BotCall} (h : BotCoherent s)
    (hs : c.step P s = some s') : BotCoherent s' ↔ c.Covered P s := by
  obtain rfl := Option.some.inj hs
  rw [coherent_iff_mirrors] at h ⊢
  obtain ⟨admin, request, commits⟩ := c
  cases request with
  | create id api_key created_at body =>
    exact mirrors_create_iff h commits admin id api_key created_at body
  | update bot_id body => exact mirrors_update_iff h commits admin bot_id body
  | delete bot_id => exact mirrors_delete_iff h commits admin bot_id

/-- **The exact statement.** The registry is coherent after every request if and only if every
request was covered. -/
theorem coherent_iff_covered {P : Columns} {s : Site} (h : BotCoherent s) (calls : List BotCall) :
    Transition.Always (fun s c => BotCall.step P s c) BotCoherent s calls ↔
      Transition.Guarded (fun s c => BotCall.step P s c) (fun s c => c.Covered P s) s calls :=
  Transition.always_iff_guarded (K := fun _ => True) (fun _ _ _ _ _ => trivial)
    (fun _ _ _ _ h hs => step_coherent_iff h hs) trivial h

/-! ### Two runs -/

section Runs

/-- PostgreSQL and Redis before the first request. -/
def Site.empty : Site := ⟨⟨∅, ∅, ∅⟩, fun _ => none⟩

/-- A database that takes every row. -/
def anyColumns : Columns := ⟨fun _ => true, fun _ => true, fun _ => true⟩

def sampleAdmin : Admin where
  id := ⟨"11111111-1111-4111-8111-111111111111", by decide⟩
  email := "admin@example.com"
  password_hash := ""
  name := "admin"
  is_active := true

def sampleBotId : Uuid := ⟨"22222222-2222-4222-8222-222222222222", by decide⟩

def sampleCreate : BotCall where
  admin := sampleAdmin
  request := .create sampleBotId "key" 0 ⟨"bot", ∅, by decide⟩
  commits := true

/-- The admin switches the bot off. -/
def samplePatch : BotCall where
  admin := sampleAdmin
  request := .update sampleBotId ⟨none, none, some false⟩
  commits := true

theorem mirrors_empty : Mirrors Site.empty := fun _ => rfl

/-- The bot is created and deleted. -/
theorem coherent_iff_covered_delete :
    Transition.Always (fun s c => BotCall.step anyColumns s c) BotCoherent Site.empty
      [sampleCreate, ⟨sampleAdmin, .delete sampleBotId, true⟩] := by
  refine (coherent_iff_covered (coherent_iff_mirrors.mpr mirrors_empty) _).mpr ?_
  exact fun s₁ _ => ⟨fun _ => rfl, fun s₂ _ => ⟨fun _ _ _ => rfl, trivial⟩⟩

/-- A bot that was switched off by `PATCH` keeps its key. -/
theorem not_coherent : ¬∀ (P : Columns) (calls : List BotCall),
    Transition.Always (fun s c => BotCall.step P s c) BotCoherent Site.empty calls := by
  intro h
  have hcreated := (h anyColumns [sampleCreate, samplePatch]).2 _ rfl
  have hpatched := (hcreated.2 _ rfl).key sampleBotId sampleAdmin.id.str
  obtain ⟨bot, hbot, -⟩ := hpatched.mp (by decide)
  exact absurd hbot nofun

end Runs

end TitanChat
