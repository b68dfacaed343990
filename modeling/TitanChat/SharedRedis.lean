import Mathlib
import TitanChat.AgentRouter
import TitanChat.Internal.Redis
import TitanChat.OnlineTracker

/-!
# One Redis for all of them

The agent router, the tracker of online chats, the connection registry, the gateway registry, the
bot registry and the rate limiter each have a client of their own, but they all connect to one Redis
and to one database of it. Whatever keeps them apart is in the texts of their keys, which are built
from the identifiers that a client has sent. The other modules of this development give each of them
its own record. Here the calls are the commands of the source, on one store under strings.

The keys of different families never meet, whatever the identifiers are: no prefix of one family
leads into another. So every run of the calls, in any order, does to the one store what it does to
the records, with the same replies, and no command ever meets a value of the wrong type.

## Main definitions

* `RedisKey`, `RedisKey.name`: the keys of the source and their texts
* `Shared`, `Shared.call`: the records, and what each call does to them
* `Shared.value`: what the records are in Redis
* `RedisCall.program`: the commands of each call

## Main results

* `name_injective`: the texts of two keys differ
* `agrees`: the commands of a call do what the call does to the records
* `run_redisCalls`: a run of the calls
-/

namespace TitanChat

open Redis

/-! ### The keys -/

/-- The keys of the source. -/
inductive RedisKey where
  /-- `agent:available`. -/
  | available
  | agentStatus (agent_id : String)
  | agentMeta (agent_id : String)
  | agentChats (agent_id : String)
  | chatActive (conversation_id : String)
  /-- `online:chats`. -/
  | onlineChats
  /-- `online:chats:by_time`. -/
  | byTime
  | ofUser (user_id : String)
  | ofAgent (agent_id : String)
  | onlineChat (conversation_id : String)
  | connection (conversation_id : String)
  /-- `gateway:registry`. -/
  | gateways
  | botAdmin (bot_id : String)
  | rate (user_id : String)
  deriving DecidableEq

namespace RedisKey

/-- The text of a key. -/
def name : RedisKey → String
  | available => "agent:available"
  | agentStatus agent_id => "agent:status:" ++ agent_id
  | agentMeta agent_id => "agent:meta:" ++ agent_id
  | agentChats agent_id => "agent:chats:" ++ agent_id
  | chatActive conversation_id => "chat:active:" ++ conversation_id
  | onlineChats => "online:chats"
  | byTime => "online:chats:by_time"
  | ofUser user_id => "online:chats:user:" ++ user_id
  | ofAgent agent_id => "online:chats:agent:" ++ agent_id
  | onlineChat conversation_id => "online:chat:" ++ conversation_id
  | connection conversation_id => "ws:conn:" ++ conversation_id
  | gateways => "gateway:registry"
  | botAdmin bot_id => "bot:" ++ bot_id ++ ":admin_id"
  | rate user_id => "rate:" ++ user_id

/-- The families, by their prefixes. -/
def families : List (String × (List Char → RedisKey)) :=
  [("agent:status:", fun l => agentStatus (.ofList l)),
    ("agent:meta:", fun l => agentMeta (.ofList l)),
    ("agent:chats:", fun l => agentChats (.ofList l)),
    ("chat:active:", fun l => chatActive (.ofList l)),
    ("online:chats:user:", fun l => ofUser (.ofList l)),
    ("online:chats:agent:", fun l => ofAgent (.ofList l)),
    ("online:chat:", fun l => onlineChat (.ofList l)),
    ("ws:conn:", fun l => connection (.ofList l)),
    ("bot:", fun l => botAdmin (.ofList (l.take (l.length - ":admin_id".length)))),
    ("rate:", fun l => rate (.ofList l))]

/-- What follows a prefix. -/
def afterPrefix : List Char → List Char → Option (List Char)
  | [], text => some text
  | c :: p, text =>
    match text with
    | d :: text => if c = d then afterPrefix p text else none
    | [] => none

/-- The key of a text, if it is one of the source's. -/
def parse (text : List Char) : Option RedisKey :=
  if text = "agent:available".toList then some available
  else if text = "online:chats".toList then some onlineChats
  else if text = "online:chats:by_time".toList then some byTime
  else if text = "gateway:registry".toList then some gateways
  else families.findSome? fun f => (afterPrefix f.1.toList text).map f.2

theorem parse_append {p a : String} {k : RedisKey} (h : parse (p.toList ++ a.toList) = some k) :
    parse (p ++ a).toList = some k := by
  rwa [String.toList_append]

theorem parse_name (k : RedisKey) : parse k.name.toList = some k := by
  cases k with
  | available | onlineChats | byTime | gateways => decide
  | agentStatus a =>
    have h : parse ("agent:status:".toList ++ a.toList) = some (agentStatus (.ofList a.toList)) :=
      rfl
    rw [String.ofList_toList] at h
    exact parse_append h
  | agentMeta a =>
    have h : parse ("agent:meta:".toList ++ a.toList) = some (agentMeta (.ofList a.toList)) := rfl
    rw [String.ofList_toList] at h
    exact parse_append h
  | agentChats a =>
    have h : parse ("agent:chats:".toList ++ a.toList) = some (agentChats (.ofList a.toList)) := rfl
    rw [String.ofList_toList] at h
    exact parse_append h
  | chatActive c =>
    have h : parse ("chat:active:".toList ++ c.toList) = some (chatActive (.ofList c.toList)) := rfl
    rw [String.ofList_toList] at h
    exact parse_append h
  | ofUser u =>
    have h : parse ("online:chats:user:".toList ++ u.toList) = some (ofUser (.ofList u.toList)) :=
      rfl
    rw [String.ofList_toList] at h
    exact parse_append h
  | ofAgent a =>
    have h : parse ("online:chats:agent:".toList ++ a.toList) =
        some (ofAgent (.ofList a.toList)) := rfl
    rw [String.ofList_toList] at h
    exact parse_append h
  | onlineChat c =>
    have h : parse ("online:chat:".toList ++ c.toList) = some (onlineChat (.ofList c.toList)) := rfl
    rw [String.ofList_toList] at h
    exact parse_append h
  | connection c =>
    have h : parse ("ws:conn:".toList ++ c.toList) = some (connection (.ofList c.toList)) := rfl
    rw [String.ofList_toList] at h
    exact parse_append h
  | rate u =>
    have h : parse ("rate:".toList ++ u.toList) = some (rate (.ofList u.toList)) := rfl
    rw [String.ofList_toList] at h
    exact parse_append h
  | botAdmin b =>
    have h : parse ("bot:".toList ++ (b ++ ":admin_id").toList) =
        some (botAdmin (.ofList ((b ++ ":admin_id").toList.take
          ((b ++ ":admin_id").toList.length - ":admin_id".length)))) := rfl
    have htake : (b ++ ":admin_id").toList.take
        ((b ++ ":admin_id").toList.length - ":admin_id".length) = b.toList := by
      rw [String.toList_append, List.length_append, String.length_toList, String.length_toList,
        Nat.add_sub_cancel, ← String.length_toList, List.take_left]
    rw [htake, String.ofList_toList] at h
    show parse ("bot:" ++ b ++ ":admin_id").toList = _
    rw [String.append_assoc]
    exact parse_append h

/-- **The texts of two keys differ.** -/
theorem name_injective : Function.Injective name := fun k k' h =>
  Option.some.inj <| (parse_name k).symm.trans <|
    (congrArg (fun text => parse text.toList) h).trans (parse_name k')

end RedisKey

/-! ### The records -/

/-- What the modules keep in Redis, each for itself. -/
structure Shared where
  router : Router
  tracker : Tracker
  /-- `ws:conn:{conversation_id}`. -/
  connections : String → Option String
  /-- `gateway:registry`. -/
  gateways : Dict String
  /-- `bot:{bot_id}:admin_id`. -/
  botAdmins : String → Option String
  /-- `rate:{user_id}`. -/
  counters : String → Option ℕ

/-- A step of one of the modules: a command, a pipeline or a script. -/
inductive RedisCall where
  | agentGoOnline (agent_id : String) (max_chats : ℤ) (skills : List String)
  | agentHeartbeat (agent_id : String)
  | agentGoOffline (agent_id : String)
  | routeLua (conversation_id required_skill : String)
  | releaseRead (conversation_id : String)
  | releaseExec (agent_id conversation_id : String)
  /-- The reads of `get_all_agents_status`. -/
  | agents
  | agentMeta (agent_id : String)
  | agentStatus (agent_id : String)
  | agentChats (agent_id : String)
  /-- The `HGETALL` of `get_active_chats`. The `SCAN` before it reads names alone; which of them it
  has when keys come and go meanwhile, Redis leaves open. It is not modelled. -/
  | activeChat (conversation_id : String)
  | chatOnline (conversation_id user_id server_id bot_id : String) (now : ℤ)
  | chatAssigned (conversation_id agent_id : String)
  | chatMessageReceived (conversation_id : String) (now : ℤ)
  /-- The `HGETALL` of `chat_offline` and its pipeline. -/
  | chatOfflineRead (conversation_id : String)
  | chatOfflineExec (conversation_id : String) (meta_ : Dict String)
  | onlineCount
  /-- The page of `get_all_online_chats` and the hashes on it. -/
  | onlinePage (offset limit : ℤ) (newest_first : Bool)
  | onlineHashes (conversation_ids : List String)
  | chatsForAgent (agent_id : String)
  | chatsForUser (user_id : String)
  | registerConnection (conversation_id server_id : String)
  | unregisterConnection (conversation_id : String)
  | getServerForConnection (conversation_id : String)
  | refreshConnectionTtl (conversation_id : String)
  | registerGateway (server_id internal_url : String)
  | unregisterGateway (server_id : String)
  | resolveGateway (server_id : String)
  | cacheBotMapping (bot_id admin_id : String)
  | invalidateBotMapping (bot_id : String)
  | getAdminIdForBot (bot_id : String)
  | checkRateLimit (user_id : String)
  /-- The time to live of a key runs out. -/
  | expireStatus (agent_id : String)
  | expireConnection (conversation_id : String)
  | expireRate (user_id : String)

/-- What Redis replies. -/
inductive RedisReply where
  | done
  | routed (reply : Router.Reply)
  | text (s : Option String)
  | number (n : ℕ)
  | hash (h : Dict String)
  | hashes (hs : List (Dict String))
  | members (s : Finset String)
  | ids (l : List String)
  | scored (l : List (String × ℤ))

/-- The hash `agent:meta:{agent_id}`. -/
def Router.metaHash (r : Router) (agent_id : String) : Dict String :=
  Tracker.hset ∅ (((r.maxChats agent_id).map fun n => ("max_chats", n.repr)).toList ++
    ((r.skills agent_id).map fun s => ("skills", s)).toList)

/-- The hash `chat:active:{conversation_id}`. -/
def ActiveChat.hash (chat : ActiveChat) : Dict String :=
  Tracker.hset ∅ [("agent_id", chat.agent_id), ("status", chat.status)]

namespace Shared

/-- Nothing is stored. -/
def empty : Shared where
  router := .empty
  tracker := .empty
  connections _ := none
  gateways := ∅
  botAdmins _ := none
  counters _ := none

/-- What a call does to the records, and its reply. -/
def call (find : String → String → Option Bool) (s : Shared) : RedisCall → RedisReply × Shared
  | .agentGoOnline a n skills => (.done, { s with router := s.router.agentGoOnline a n skills })
  | .agentHeartbeat a => (.done, { s with router := s.router.agentHeartbeat a })
  | .agentGoOffline a => (.done, { s with router := s.router.agentGoOffline a })
  | .routeLua c skill =>
    (.routed (s.router.routeLua find c skill).1,
      { s with router := (s.router.routeLua find c skill).2 })
  | .releaseRead c => (.text (s.router.holder c), s)
  | .releaseExec a c => (.done, { s with router := s.router.releaseExec a c })
  | .agents => (.scored s.router.available.ranked, s)
  | .agentMeta a => (.hash (s.router.metaHash a), s)
  | .agentStatus a => (.text (s.router.status a), s)
  | .agentChats a => (.members (s.router.chats a), s)
  | .activeChat c => (.hash (((s.router.active c).map ActiveChat.hash).getD ∅), s)
  | .chatOnline c u server bot now =>
    (.done, { s with tracker := s.tracker.chatOnline c u server bot now })
  | .chatAssigned c a => (.done, { s with tracker := s.tracker.chatAssigned c a })
  | .chatMessageReceived c now =>
    (.done, { s with tracker := s.tracker.chatMessageReceived c now })
  | .chatOfflineRead c => (.hash (s.tracker.chat c), s)
  | .chatOfflineExec c meta_ => (.done, { s with tracker := s.tracker.chatOfflineExec c meta_ })
  | .onlineCount => (.number s.tracker.chats.card, s)
  | .onlinePage offset limit newest_first =>
    (.ids (if newest_first then s.tracker.byTime.zrevrange offset (offset + limit - 1)
      else s.tracker.byTime.zrange offset (offset + limit - 1)), s)
  | .onlineHashes cs => (.hashes (cs.map s.tracker.chat), s)
  | .chatsForAgent a => (.members (s.tracker.ofAgent a), s)
  | .chatsForUser u => (.members (s.tracker.ofUser u), s)
  | .registerConnection c server =>
    (.done, { s with connections := Function.update s.connections c (some server) })
  | .unregisterConnection c =>
    (.done, { s with connections := Function.update s.connections c none })
  | .getServerForConnection c => (.text (s.connections c), s)
  | .refreshConnectionTtl _ => (.done, s)
  | .registerGateway server url => (.done, { s with gateways := s.gateways.insert server url })
  | .unregisterGateway server => (.done, { s with gateways := s.gateways.erase server })
  | .resolveGateway server => (.text (s.gateways.lookup server), s)
  | .cacheBotMapping bot admin =>
    (.done, { s with botAdmins := Function.update s.botAdmins bot (some admin) })
  | .invalidateBotMapping bot =>
    (.done, { s with botAdmins := Function.update s.botAdmins bot none })
  | .getAdminIdForBot bot => (.text (s.botAdmins bot), s)
  | .checkRateLimit u =>
    (.number ((s.counters u).getD 0 + 1),
      { s with counters := Function.update s.counters u (some ((s.counters u).getD 0 + 1)) })
  | .expireStatus a => (.done, { s with router := s.router.expireStatus a })
  | .expireConnection c => (.done, { s with connections := Function.update s.connections c none })
  | .expireRate u => (.done, { s with counters := Function.update s.counters u none })

/-- What the records are in Redis. -/
def value (s : Shared) : Store RedisKey
  | .available => ofZset s.router.available
  | .agentStatus a => (s.router.status a).map .string
  | .agentMeta a => ofHash (s.router.metaHash a)
  | .agentChats a => ofSet (s.router.chats a)
  | .chatActive c => ofHash (((s.router.active c).map ActiveChat.hash).getD ∅)
  | .onlineChats => ofSet s.tracker.chats
  | .byTime => ofZset s.tracker.byTime
  | .ofUser u => ofSet (s.tracker.ofUser u)
  | .ofAgent a => ofSet (s.tracker.ofAgent a)
  | .onlineChat c => ofHash (s.tracker.chat c)
  | .connection c => (s.connections c).map .string
  | .gateways => ofHash s.gateways
  | .botAdmin b => (s.botAdmins b).map .string
  | .rate u => ((s.counters u).map Nat.repr).map .string

end Shared

/-! ### The commands -/

namespace RedisCall

/-- Lua's `tonumber`, for an integer. -/
def tonumber (s : String) : Option ℤ := s.toInt?

section Route

variable (find : String → String → Option Bool) (conversation_id required_skill : String)

/-- The skill test of the script. -/
def skillTest (agent_id : String) : Program (Option Bool) :=
  if required_skill = "" then pure (some true)
  else do
    let skills ← exec ("agent:meta:" ++ agent_id) (hget "skills")
    pure (find ("," ++ skills.getD "" ++ ",") ("," ++ required_skill ++ ","))

/-- The loop of `_ROUTE_LUA`. -/
def routeLoop : List (String × ℤ) → Program Router.Reply
  | [] => pure .nil
  | (agent_id, active_count) :: candidates => do
    let status ← exec ("agent:status:" ++ agent_id) get
    if status ≠ some "online" then
      exec "agent:available" (zrem agent_id)
      routeLoop candidates
    else
      let max_chats ← exec ("agent:meta:" ++ agent_id) (hget "max_chats")
      match tonumber (max_chats.getD "5") with
      | none => pure .error
      | some max_chats =>
        if active_count < max_chats then
          match ← skillTest find required_skill agent_id with
          | none => pure .error
          | some false => routeLoop candidates
          | some true =>
            exec "agent:available" (zincrby 1 agent_id)
            exec ("agent:chats:" ++ agent_id) (sadd conversation_id)
            exec ("chat:active:" ++ conversation_id)
              (hset [("agent_id", agent_id), ("status", "active")])
            pure (.assigned agent_id)
        else routeLoop candidates

end Route

/-- Remove from a set of the index, unless its name is empty. -/
def unindex (index name conversation_id : String) : Program Unit :=
  if name = "" then pure () else exec (index ++ name) (srem conversation_id)

/-- The commands of the source. -/
def program (find : String → String → Option Bool) : RedisCall → Program RedisReply
  | agentGoOnline agent_id max_chats skills => do
    exec ("agent:status:" ++ agent_id) (set "online")
    exec "agent:available" (zadd agent_id 0)
    exec ("agent:meta:" ++ agent_id)
      (hset [("max_chats", max_chats.repr), ("skills", ",".intercalate skills)])
    pure .done
  | agentHeartbeat agent_id => do
    exec ("agent:status:" ++ agent_id) (set "online")
    pure .done
  | agentGoOffline agent_id => do
    exec ("agent:status:" ++ agent_id) del
    exec "agent:available" (zrem agent_id)
    pure .done
  | routeLua conversation_id required_skill => do
    let candidates ← exec "agent:available" (zrangebyscore 0)
    .routed <$> routeLoop find conversation_id required_skill candidates
  | releaseRead conversation_id =>
    .text <$> exec ("chat:active:" ++ conversation_id) (hget "agent_id")
  | releaseExec agent_id conversation_id => do
    exec "agent:available" (zincrby (-1) agent_id)
    exec ("agent:chats:" ++ agent_id) (srem conversation_id)
    exec ("chat:active:" ++ conversation_id) del
    pure .done
  | agents => .scored <$> exec "agent:available" zranked
  | agentMeta agent_id => .hash <$> exec ("agent:meta:" ++ agent_id) hgetall
  | agentStatus agent_id => .text <$> exec ("agent:status:" ++ agent_id) get
  | agentChats agent_id => .members <$> exec ("agent:chats:" ++ agent_id) smembers
  | activeChat conversation_id => .hash <$> exec ("chat:active:" ++ conversation_id) hgetall
  | chatOnline conversation_id user_id server_id bot_id now => do
    exec "online:chats" (sadd conversation_id)
    exec "online:chats:by_time" (zadd conversation_id now)
    exec ("online:chats:user:" ++ user_id) (sadd conversation_id)
    exec ("online:chat:" ++ conversation_id)
      (hset [("user_id", user_id), ("bot_id", bot_id), ("agent_id", ""), ("server_id", server_id),
        ("status", "queued"), ("started_at", toString (now / 1000000)),
        ("last_msg_at", toString (now / 1000000))])
    pure .done
  | chatAssigned conversation_id agent_id => do
    exec ("online:chat:" ++ conversation_id) (hset [("agent_id", agent_id), ("status", "active")])
    exec ("online:chats:agent:" ++ agent_id) (sadd conversation_id)
    pure .done
  | chatMessageReceived conversation_id now => do
    exec ("online:chat:" ++ conversation_id) (hset [("last_msg_at", toString (now / 1000000))])
    pure .done
  | chatOfflineRead conversation_id => .hash <$> exec ("online:chat:" ++ conversation_id) hgetall
  | chatOfflineExec conversation_id meta_ => do
    let user_id := (meta_.lookup "user_id").getD ""
    let agent_id := (meta_.lookup "agent_id").getD ""
    exec "online:chats" (srem conversation_id)
    exec "online:chats:by_time" (zrem conversation_id)
    exec ("online:chat:" ++ conversation_id) del
    unindex "online:chats:user:" user_id conversation_id
    unindex "online:chats:agent:" agent_id conversation_id
    pure .done
  | onlineCount => .number <$> exec "online:chats" scard
  | onlinePage offset limit newest_first =>
    .ids <$> exec "online:chats:by_time" (if newest_first then zrevrange offset (offset + limit - 1)
      else zrange offset (offset + limit - 1))
  | onlineHashes conversation_ids =>
    .hashes <$> conversation_ids.mapM fun cid => exec ("online:chat:" ++ cid) hgetall
  | chatsForAgent agent_id => .members <$> exec ("online:chats:agent:" ++ agent_id) smembers
  | chatsForUser user_id => .members <$> exec ("online:chats:user:" ++ user_id) smembers
  | registerConnection conversation_id server_id => do
    exec ("ws:conn:" ++ conversation_id) (set server_id)
    pure .done
  | unregisterConnection conversation_id => do
    exec ("ws:conn:" ++ conversation_id) del
    pure .done
  | getServerForConnection conversation_id => .text <$> exec ("ws:conn:" ++ conversation_id) get
  | refreshConnectionTtl conversation_id => do
    let _ ← exec ("ws:conn:" ++ conversation_id) expire
    pure .done
  | registerGateway server_id internal_url => do
    exec "gateway:registry" (hset [(server_id, internal_url)])
    pure .done
  | unregisterGateway server_id => do
    exec "gateway:registry" (hdel server_id)
    pure .done
  | resolveGateway server_id => .text <$> exec "gateway:registry" (hget server_id)
  | cacheBotMapping bot_id admin_id => do
    exec ("bot:" ++ bot_id ++ ":admin_id") (set admin_id)
    pure .done
  | invalidateBotMapping bot_id => do
    exec ("bot:" ++ bot_id ++ ":admin_id") del
    pure .done
  | getAdminIdForBot bot_id => .text <$> exec ("bot:" ++ bot_id ++ ":admin_id") get
  | checkRateLimit user_id => do
    let count ← exec ("rate:" ++ user_id) incr
    let _ ← exec ("rate:" ++ user_id) expire
    pure (.number count)
  | expireStatus agent_id => do
    exec ("agent:status:" ++ agent_id) del
    pure .done
  | expireConnection conversation_id => do
    exec ("ws:conn:" ++ conversation_id) del
    pure .done
  | expireRate user_id => do
    exec ("rate:" ++ user_id) del
    pure .done

end RedisCall

/-! ### The commands do what the calls do -/

section Does

open RedisKey RedisCall

variable {find : String → String → Option Bool} {s : Shared}

@[simp] theorem lookup_maxChats (r : Router) (a : String) :
    (r.metaHash a).lookup "max_chats" = (r.maxChats a).map Int.repr := by
  rw [Router.metaHash]
  cases r.maxChats a <;> cases r.skills a <;> rfl

@[simp] theorem lookup_skills (r : Router) (a : String) :
    (r.metaHash a).lookup "skills" = r.skills a := by
  rw [Router.metaHash]
  cases r.maxChats a <;> cases r.skills a <;> rfl

/-- The fields of an agent are written over the old ones. -/
theorem metaHash_agentGoOnline (r : Router) (a : String) (n : ℤ) (skills : List String) :
    Tracker.hset (r.metaHash a) [("max_chats", n.repr), ("skills", ",".intercalate skills)] =
      (r.agentGoOnline a n skills).metaHash a := by
  simp only [Router.metaHash, Router.agentGoOnline, Function.update_self]
  cases r.maxChats a <;> cases r.skills a <;> rfl

theorem hash_assign (chat : Option ActiveChat) (a : String) :
    Tracker.hset ((chat.map ActiveChat.hash).getD ∅) [("agent_id", a), ("status", "active")] =
      ActiveChat.hash ⟨a, "active"⟩ := by
  cases chat <;> rfl

theorem lookup_hash (chat : Option ActiveChat) :
    ((chat.map ActiveChat.hash).getD ∅).lookup "agent_id" = chat.map ActiveChat.agent_id := by
  cases chat with
  | none => rfl
  | some chat => rfl

/-- The records differ in one key. -/
theorem value_eq_update {s s' : Shared} {k : RedisKey} {v : Option Value} (hk : s'.value k = v)
    (hother : ∀ k' ≠ k, s'.value k' = s.value k') :
    s'.value = Function.update s.value k v := Function.eq_update_iff.mpr ⟨hk, hother⟩

/-- The records differ in one key of a family. -/
theorem value_family {α : Type} {f : String → RedisKey} {g : String → α} {e : α → Option Value}
    {a : String} {v : α} {s s' : Shared} (hs : ∀ d, s.value (f d) = e (g d))
    (hs' : ∀ d, s'.value (f d) = e (Function.update g a v d))
    (hother : ∀ k, (∀ d, k ≠ f d) → s'.value k = s.value k) :
    s'.value = Function.update s.value (f a) (e v) := by
  refine value_eq_update (by rw [hs', Function.update_self]) fun k hk => ?_
  by_cases hfamily : ∃ d, k = f d
  · obtain ⟨d, rfl⟩ := hfamily
    rw [hs, hs', Function.update_of_ne fun h => hk (congrArg f h)]
  · exact hother k fun d hd => hfamily ⟨d, hd⟩

theorem value_available (z : SortedSet String ℤ) :
    ({ s with router.available := z } : Shared).value =
      Function.update s.value .available (ofZset z) := by
  refine value_eq_update rfl fun k hk => ?_
  cases k with
  | available => exact absurd rfl hk
  | _ => rfl

theorem value_status (a : String) (v : Option String) :
    ({ s with router.status := Function.update s.router.status a v } : Shared).value =
      Function.update s.value (.agentStatus a) (v.map .string) := by
  refine value_family (f := .agentStatus) (fun _ => rfl) (fun _ => rfl) fun k hk => ?_
  cases k with
  | agentStatus d => exact absurd rfl (hk d)
  | _ => rfl

theorem value_chats (a : String) (t : Finset String) :
    ({ s with router.chats := Function.update s.router.chats a t } : Shared).value =
      Function.update s.value (.agentChats a) (ofSet t) := by
  refine value_family (f := .agentChats) (fun _ => rfl) (fun _ => rfl) fun k hk => ?_
  cases k with
  | agentChats d => exact absurd rfl (hk d)
  | _ => rfl

theorem value_active (c : String) (chat : Option ActiveChat) :
    ({ s with router.active := Function.update s.router.active c chat } : Shared).value =
      Function.update s.value (.chatActive c) (ofHash ((chat.map ActiveChat.hash).getD ∅)) := by
  refine value_family (f := .chatActive) (g := s.router.active)
    (e := fun chat => ofHash ((chat.map ActiveChat.hash).getD ∅)) (fun _ => rfl) (fun _ => rfl)
    fun k hk => ?_
  cases k with
  | chatActive d => exact absurd rfl (hk d)
  | _ => rfl

theorem value_onlineChats (t : Finset String) :
    ({ s with tracker.chats := t } : Shared).value =
      Function.update s.value .onlineChats (ofSet t) := by
  refine value_eq_update rfl fun k hk => ?_
  cases k with
  | onlineChats => exact absurd rfl hk
  | _ => rfl

theorem value_byTime (z : SortedSet String ℤ) :
    ({ s with tracker.byTime := z } : Shared).value =
      Function.update s.value .byTime (ofZset z) := by
  refine value_eq_update rfl fun k hk => ?_
  cases k with
  | byTime => exact absurd rfl hk
  | _ => rfl

theorem value_ofUser (u : String) (t : Finset String) :
    ({ s with tracker.ofUser := Function.update s.tracker.ofUser u t } : Shared).value =
      Function.update s.value (.ofUser u) (ofSet t) := by
  refine value_family (f := .ofUser) (fun _ => rfl) (fun _ => rfl) fun k hk => ?_
  cases k with
  | ofUser d => exact absurd rfl (hk d)
  | _ => rfl

theorem value_ofAgent (a : String) (t : Finset String) :
    ({ s with tracker.ofAgent := Function.update s.tracker.ofAgent a t } : Shared).value =
      Function.update s.value (.ofAgent a) (ofSet t) := by
  refine value_family (f := .ofAgent) (fun _ => rfl) (fun _ => rfl) fun k hk => ?_
  cases k with
  | ofAgent d => exact absurd rfl (hk d)
  | _ => rfl

theorem value_onlineChat (c : String) (h : Dict String) :
    ({ s with tracker.chat := Function.update s.tracker.chat c h } : Shared).value =
      Function.update s.value (.onlineChat c) (ofHash h) := by
  refine value_family (f := .onlineChat) (fun _ => rfl) (fun _ => rfl) fun k hk => ?_
  cases k with
  | onlineChat d => exact absurd rfl (hk d)
  | _ => rfl

theorem value_connection (c : String) (v : Option String) :
    ({ s with connections := Function.update s.connections c v } : Shared).value =
      Function.update s.value (.connection c) (v.map .string) := by
  refine value_family (f := .connection) (fun _ => rfl) (fun _ => rfl) fun k hk => ?_
  cases k with
  | connection d => exact absurd rfl (hk d)
  | _ => rfl

theorem value_gateways (h : Dict String) :
    ({ s with gateways := h } : Shared).value =
      Function.update s.value .gateways (ofHash h) := by
  refine value_eq_update rfl fun k hk => ?_
  cases k with
  | gateways => exact absurd rfl hk
  | _ => rfl

theorem value_botAdmin (b : String) (v : Option String) :
    ({ s with botAdmins := Function.update s.botAdmins b v } : Shared).value =
      Function.update s.value (.botAdmin b) (v.map .string) := by
  refine value_family (f := .botAdmin) (fun _ => rfl) (fun _ => rfl) fun k hk => ?_
  cases k with
  | botAdmin d => exact absurd rfl (hk d)
  | _ => rfl

theorem value_rate (u : String) (n : Option ℕ) :
    ({ s with counters := Function.update s.counters u n } : Shared).value =
      Function.update s.value (.rate u) ((n.map Nat.repr).map .string) := by
  refine value_family (f := .rate) (g := s.counters)
    (e := fun n => (n.map Nat.repr).map .string) (fun _ => rfl) (fun _ => rfl) fun k hk => ?_
  cases k with
  | rate d => exact absurd rfl (hk d)
  | _ => rfl

theorem value_meta (a : String) (n : ℤ) (skills : List String) :
    ({ s with router := { s.router with
        maxChats := Function.update s.router.maxChats a (some n)
        skills := Function.update s.router.skills a (some (",".intercalate skills)) } } :
      Shared).value = Function.update s.value (.agentMeta a) (ofHash (Tracker.hset
        (s.router.metaHash a) [("max_chats", n.repr), ("skills", ",".intercalate skills)])) := by
  refine value_eq_update (congrArg ofHash (metaHash_agentGoOnline _ a n skills).symm) fun k hk => ?_
  cases k with
  | agentMeta d =>
    have hne : d ≠ a := fun h => hk (congrArg RedisKey.agentMeta h)
    simp [Shared.value, Router.metaHash, Function.update_of_ne hne]
  | _ => rfl

/-- A command on one key changes that key of the records. -/
theorem does_at {ρ : Type} {c : Command ρ} (k : RedisKey) {r : ρ} {v : Option Value} {s' : Shared}
    (h : c (s.value k) = .ok (r, v)) (hs : s'.value = Function.update s.value k v) :
    Does name (exec k.name c) s.value r s'.value := hs ▸ Does.exec name_injective k h

/-- A command that only reads. -/
theorem does_read {ρ : Type} {c : Command ρ} (k : RedisKey) {r : ρ}
    (h : c (s.value k) = .ok (r, s.value k)) : Does name (exec k.name c) s.value r s.value :=
  Does.read name_injective k h

/-- The program of a call does what the call does. -/
def Agrees (find : String → String → Option Bool) (s : Shared) (c : RedisCall) : Prop :=
  Does name (c.program find) s.value (s.call find c).1 (s.call find c).2.value

theorem agrees_agentGoOnline (a : String) (n : ℤ) (skills : List String) :
    Agrees find s (.agentGoOnline a n skills) :=
  Does.bind (does_at (.agentStatus a) rfl (value_status a (some "online"))) <|
  Does.bind (does_at .available (zadd_ofZset _ a 0) (value_available _)) <|
  Does.bind (does_at (.agentMeta a) (hset_ofHash _ _) (value_meta a n skills)) <|
  Does.pure _ rfl

theorem agrees_agentGoOffline (a : String) : Agrees find s (.agentGoOffline a) :=
  Does.bind (does_at (.agentStatus a) rfl (value_status a none)) <|
  Does.bind (does_at .available (zrem_ofZset _ a) (value_available _)) <|
  Does.pure _ rfl

theorem agrees_releaseExec (a c : String) : Agrees find s (.releaseExec a c) :=
  Does.bind (does_at .available (zincrby_ofZset _ (-1) a) (value_available _)) <|
  Does.bind (does_at (.agentChats a) (srem_ofSet _ c) (value_chats a _)) <|
  Does.bind (does_at (.chatActive c) rfl (value_active c none)) <|
  Does.pure _ rfl

theorem agrees_chatOnline (c u server bot : String) (now : ℤ) :
    Agrees find s (.chatOnline c u server bot now) :=
  Does.bind (does_at .onlineChats (sadd_ofSet _ c) (value_onlineChats _)) <|
  Does.bind (does_at .byTime (zadd_ofZset _ c now) (value_byTime _)) <|
  Does.bind (does_at (.ofUser u) (sadd_ofSet _ c) (value_ofUser u _)) <|
  Does.bind (does_at (.onlineChat c) (hset_ofHash _ _) (value_onlineChat c _)) <|
  Does.pure _ rfl

theorem agrees_chatAssigned (c a : String) : Agrees find s (.chatAssigned c a) :=
  Does.bind (does_at (.onlineChat c) (hset_ofHash _ _) (value_onlineChat c _)) <|
  Does.bind (does_at (.ofAgent a) (sadd_ofSet _ c) (value_ofAgent a _)) <|
  Does.pure _ rfl

theorem does_unindex_user (c u : String) :
    Does name (unindex "online:chats:user:" u c) s.value ()
      ({ s with tracker.ofUser := Tracker.unindex s.tracker.ofUser u c } : Shared).value := by
  rw [unindex, Tracker.unindex]
  split
  · exact Does.pure _ rfl
  · exact does_at (.ofUser u) (srem_ofSet _ c) (value_ofUser u _)

theorem does_unindex_agent (c a : String) :
    Does name (unindex "online:chats:agent:" a c) s.value ()
      ({ s with tracker.ofAgent := Tracker.unindex s.tracker.ofAgent a c } : Shared).value := by
  rw [unindex, Tracker.unindex]
  split
  · exact Does.pure _ rfl
  · exact does_at (.ofAgent a) (srem_ofSet _ c) (value_ofAgent a _)

theorem agrees_chatOfflineExec (c : String) (meta_ : Dict String) :
    Agrees find s (.chatOfflineExec c meta_) :=
  Does.bind (does_at .onlineChats (srem_ofSet _ c) (value_onlineChats _)) <|
  Does.bind (does_at .byTime (zrem_ofZset _ c) (value_byTime _)) <|
  Does.bind (does_at (.onlineChat c) rfl (value_onlineChat c ∅)) <|
  Does.bind (does_unindex_user c _) <|
  Does.bind (does_unindex_agent c _) <|
  Does.pure _ rfl

theorem agrees_checkRateLimit (u : String) : Agrees find s (.checkRateLimit u) :=
  Does.bind (does_at (.rate u) (incr_map _) (value_rate u (some _))) <|
  Does.bind (does_read (.rate u) rfl) <|
  Does.pure _ rfl

theorem agrees_onlinePage (offset limit : ℤ) (newest_first : Bool) :
    Agrees find s (.onlinePage offset limit newest_first) := by
  cases newest_first with
  | true => exact Does.map (does_read .byTime (zrevrange_ofZset _ _ _)) _
  | false => exact Does.map (does_read .byTime (zrange_ofZset _ _ _)) _

theorem agrees_onlineHashes (cs : List String) : Agrees find s (.onlineHashes cs) := by
  refine Does.map ?_ RedisReply.hashes
  induction cs with
  | nil => exact Does.pure _ rfl
  | cons c cs ih =>
    rw [List.mapM_cons]
    exact Does.bind (does_read (.onlineChat c) (hgetall_ofHash _)) <|
      Does.bind ih <| Does.pure _ rfl

/-- The capacity is read as it was written, and the default counts where there is none. -/
theorem tonumber_maxChats (r : Router) (a : String) :
    tonumber (((r.metaHash a).lookup "max_chats").getD "5") = some ((r.maxChats a).getD 5) := by
  rw [lookup_maxChats, tonumber]
  cases r.maxChats a with
  | none => exact Int.toInt?_repr 5
  | some n => exact Int.toInt?_repr n

/-- The skill test of the script. -/
theorem does_skillTest (skill a : String) : Does name (skillTest find skill a) s.value
    (s.router.hasSkill find skill a) s.value := by
  rw [skillTest, Router.hasSkill]
  split
  · exact Does.pure _ rfl
  · refine Does.bind (does_read (.agentMeta a) (hget_ofHash _ "skills")) ?_
    rw [lookup_skills]
    exact Does.pure _ rfl

theorem does_routeLoop (c skill : String) (candidates : List (String × ℤ)) :
    Does name (routeLoop find c skill candidates) s.value
      (s.router.routeLoop find c skill candidates).1
      ({ s with router := (s.router.routeLoop find c skill candidates).2 } : Shared).value := by
  induction candidates generalizing s with
  | nil => exact Does.pure _ rfl
  | cons p candidates ih =>
    obtain ⟨a, active_count⟩ := p
    refine Does.bind (does_read (.agentStatus a) (get_map _)) ?_
    rw [Router.routeLoop]
    by_cases hon : s.router.status a = some "online"
    · rw [if_neg (not_not.mpr hon), if_neg (not_not.mpr hon)]
      refine Does.bind (does_read (.agentMeta a) (hget_ofHash _ "max_chats")) ?_
      rw [tonumber_maxChats]
      dsimp only
      by_cases hroom : active_count < (s.router.maxChats a).getD 5
      · rw [if_pos hroom, if_pos hroom]
        refine Does.bind (does_skillTest skill a) ?_
        cases s.router.hasSkill find skill a with
        | none => exact Does.pure _ rfl
        | some b =>
          cases b with
          | false => exact ih
          | true =>
            exact Does.bind (does_at .available (zincrby_ofZset _ 1 a) (value_available _)) <|
              Does.bind (does_at (.agentChats a) (sadd_ofSet _ c) (value_chats a _)) <|
              Does.bind (does_at (.chatActive c) (hset_ofHash _ _)
                ((value_active c (some ⟨a, "active"⟩)).trans
                  (congrArg _ (congrArg ofHash (hash_assign _ a).symm)))) <|
              Does.pure _ rfl
      · rw [if_neg hroom, if_neg hroom]
        exact ih
    · rw [if_pos hon, if_pos hon]
      exact Does.bind (does_at .available (zrem_ofZset _ a) (value_available _)) ih

/-- **The commands of a call do to the one store what the call does to the records**, and Redis
replies the same. -/
theorem agrees (c : RedisCall) : Agrees find s c := by
  cases c with
  | agentGoOnline a n skills => exact agrees_agentGoOnline a n skills
  | agentHeartbeat a =>
    exact Does.bind (does_at (.agentStatus a) rfl (value_status a (some "online"))) <|
      Does.pure _ rfl
  | agentGoOffline a => exact agrees_agentGoOffline a
  | routeLua c skill =>
    exact Does.bind (does_read .available (zrangebyscore_ofZset _ 0)) <|
      Does.map (does_routeLoop c skill _) _
  | releaseRead c =>
    have h : Does name (exec ("chat:active:" ++ c) (hget "agent_id")) s.value
        (s.router.holder c) s.value := by
      rw [Router.holder, ← lookup_hash]
      exact does_read (.chatActive c) (hget_ofHash _ _)
    exact Does.map h _
  | releaseExec a c => exact agrees_releaseExec a c
  | agents => exact Does.map (does_read .available (zranked_ofZset _)) _
  | agentMeta a => exact Does.map (does_read (.agentMeta a) (hgetall_ofHash _)) _
  | agentStatus a => exact Does.map (does_read (.agentStatus a) (get_map _)) _
  | agentChats a => exact Does.map (does_read (.agentChats a) (smembers_ofSet _)) _
  | activeChat c => exact Does.map (does_read (.chatActive c) (hgetall_ofHash _)) _
  | chatOnline c u server bot now => exact agrees_chatOnline c u server bot now
  | chatAssigned c a => exact agrees_chatAssigned c a
  | chatMessageReceived c now =>
    exact Does.bind (does_at (.onlineChat c) (hset_ofHash _ _) (value_onlineChat c _)) <|
      Does.pure _ rfl
  | chatOfflineRead c => exact Does.map (does_read (.onlineChat c) (hgetall_ofHash _)) _
  | chatOfflineExec c meta_ => exact agrees_chatOfflineExec c meta_
  | onlineCount => exact Does.map (does_read .onlineChats (scard_ofSet _)) _
  | onlinePage offset limit newest_first => exact agrees_onlinePage offset limit newest_first
  | onlineHashes cs => exact agrees_onlineHashes cs
  | chatsForAgent a => exact Does.map (does_read (.ofAgent a) (smembers_ofSet _)) _
  | chatsForUser u => exact Does.map (does_read (.ofUser u) (smembers_ofSet _)) _
  | registerConnection c server =>
    exact Does.bind (does_at (.connection c) rfl (value_connection c (some server))) <|
      Does.pure _ rfl
  | unregisterConnection c | expireConnection c =>
    exact Does.bind (does_at (.connection c) rfl (value_connection c none)) <| Does.pure _ rfl
  | getServerForConnection c => exact Does.map (does_read (.connection c) (get_map _)) _
  | refreshConnectionTtl c =>
    exact Does.bind (does_read (.connection c) rfl) <| Does.pure _ rfl
  | registerGateway server url =>
    exact Does.bind (does_at .gateways (hset_ofHash _ _) (value_gateways _)) <| Does.pure _ rfl
  | unregisterGateway server =>
    exact Does.bind (does_at .gateways (hdel_ofHash _ _) (value_gateways _)) <| Does.pure _ rfl
  | resolveGateway server => exact Does.map (does_read .gateways (hget_ofHash _ _)) _
  | cacheBotMapping bot admin =>
    exact Does.bind (does_at (.botAdmin bot) rfl (value_botAdmin bot (some admin))) <|
      Does.pure _ rfl
  | invalidateBotMapping bot =>
    exact Does.bind (does_at (.botAdmin bot) rfl (value_botAdmin bot none)) <| Does.pure _ rfl
  | getAdminIdForBot bot => exact Does.map (does_read (.botAdmin bot) (get_map _)) _
  | checkRateLimit u => exact agrees_checkRateLimit u
  | expireStatus a =>
    exact Does.bind (does_at (.agentStatus a) rfl (value_status a none)) <| Does.pure _ rfl
  | expireRate u =>
    exact Does.bind (does_at (.rate u) rfl (value_rate u none)) <| Does.pure _ rfl

/-- Some calls on the records, with their replies. -/
def Shared.calls (find : String → String → Option Bool) (s : Shared) :
    List RedisCall → List RedisReply × Shared
  | [] => ([], s)
  | c :: cs =>
    let r := (s.call find c).2.calls find cs
    ((s.call find c).1 :: r.1, r.2)

theorem does_calls (cs : List RedisCall) :
    Does name (cs.mapM fun c => c.program find) s.value (s.calls find cs).1
      (s.calls find cs).2.value := by
  induction cs generalizing s with
  | nil => exact Does.pure _ rfl
  | cons c cs ih =>
    rw [List.mapM_cons]
    exact Does.bind (agrees c) <| Does.bind ih <| Does.pure _ rfl

theorem value_empty : Shared.empty.value = fun _ => none := by
  funext k
  cases k <;> rfl

/-- **Any calls, in any order.** No command is refused, each call gets the reply that its module
expects, and in the end the one store is what the records are and nothing else. -/
theorem run_redisCalls (find : String → String → Option Bool) (cs : List RedisCall) :
    ∃ st, (cs.mapM fun c : RedisCall => c.program find).run (fun _ => none) =
        .ok ((Shared.empty.calls find cs).1, st) ∧
      (∀ k : RedisKey, st k.name = (Shared.empty.calls find cs).2.value k) ∧
      ∀ key, (∀ k : RedisKey, k.name ≠ key) → st key = none := by
  have hdoes : Does name (cs.mapM fun c => c.program find) Shared.empty.value
      (Shared.empty.calls find cs).1 (Shared.empty.calls find cs).2.value := does_calls cs
  obtain ⟨st, hrun, hst⟩ := hdoes _ (value_empty ▸ named_empty name)
  exact ⟨st, hrun, hst.value, hst.other⟩

end Does

end TitanChat
