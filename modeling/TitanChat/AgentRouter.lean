import Mathlib.Algebra.Group.Int.Defs
import Mathlib.Data.Finset.Card
import Mathlib.Data.String.Basic
import TitanChat.Internal.SortedSet

/-!
# The agent router

`shared/cache/agent_router.py`: which agents are available, how many chats each of them holds, and
which agent holds a conversation. Everything lives in Redis, and each function below is one Redis
step: a single command, a `MULTI/EXEC` pipeline, or one run of the routing script.

## The keys

An agent's load is stored twice, as its score in `agent:available` and as the set
`agent:chats:{agent_id}`. The assignment is stored twice as well, forward in
`chat:active:{conversation_id}` and backward in that same set. No key is derived from another; the
theorems about this model are about when they agree.

`agent:status:{agent_id}` has a time to live of 30 seconds. Time is not part of this file: expiry is
the step `expireStatus`, which may happen at any moment.

## The skill test

The script searches the agent's skills with Lua's `string.find`, which belongs to the interpreter
inside Redis and not to this repository. It is the parameter `find`; `none` is the error that a
malformed pattern raises. Redis does not roll a script back, so the members pruned before such an
error stay pruned.

## Main definitions

* `Router`: the keys
* `routeLoop`, `routeLua`: the routing script
* `agentGoOnline`, `agentHeartbeat`, `agentGoOffline`, `releaseAgentSlot`
* `leastLoaded`: the first candidate with room and the skill, a predicate on the keys alone

## Main results

* `routeLoop_eq`: what the loop of the script computes, without the loop
* `routeLua_cases`: the two ways a run of the script ends
-/

namespace TitanChat

/-- The hash `chat:active:{conversation_id}`. -/
structure ActiveChat where
  agent_id : String
  status : String
  deriving DecidableEq, Repr

/-- The Redis keys of the agent router. A missing key is `none`, or the empty set. -/
structure Router where
  /-- The sorted set `agent:available`. -/
  available : SortedSet String ℤ
  /-- The string `agent:status:{agent_id}`. -/
  status : String → Option String
  /-- The field `max_chats` of the hash `agent:meta:{agent_id}`. -/
  maxChats : String → Option ℤ
  /-- The field `skills` of the hash `agent:meta:{agent_id}`. -/
  skills : String → Option String
  /-- The set `agent:chats:{agent_id}`. -/
  chats : String → Finset String
  /-- The hash `chat:active:{conversation_id}`. -/
  active : String → Option ActiveChat

namespace Router

/-- The empty store. -/
def empty : Router where
  available := ∅
  status _ := none
  maxChats _ := none
  skills _ := none
  chats _ := ∅
  active _ := none

/-! ### Agent lifecycle -/

/-- `agent_go_online`, one pipeline: `SET`, `ZADD` with score `0`, `HSET`. -/
def agentGoOnline (r : Router) (agent_id : String) (max_chats : ℤ) (skills : List String) :
    Router :=
  { r with
    status := Function.update r.status agent_id (some "online")
    available := r.available.insert agent_id 0
    maxChats := Function.update r.maxChats agent_id (some max_chats)
    skills := Function.update r.skills agent_id (some (",".intercalate skills)) }

/-- `agent_heartbeat`. -/
def agentHeartbeat (r : Router) (agent_id : String) : Router :=
  { r with status := Function.update r.status agent_id (some "online") }

/-- The time to live of `agent:status:{agent_id}` runs out. -/
def expireStatus (r : Router) (agent_id : String) : Router :=
  { r with status := Function.update r.status agent_id none }

/-- `agent_go_offline`, one pipeline: `DEL`, `ZREM`. -/
def agentGoOffline (r : Router) (agent_id : String) : Router :=
  { r with
    status := Function.update r.status agent_id none
    available := r.available.erase agent_id }

/-! ### Routing -/

/-- What the routing script sends back. -/
inductive Reply where
  | assigned (agent_id : String)
  | nil
  | error
  deriving DecidableEq, Repr

/-- `ZREM agent:available`. -/
def prune (r : Router) (agent_id : String) : Router :=
  { r with available := r.available.erase agent_id }

/-- The atomic assignment at the end of the script: `ZINCRBY`, `SADD`, `HSET`. -/
def assign (r : Router) (agent_id conversation_id : String) : Router :=
  { r with
    available := r.available.incrBy 1 agent_id
    chats := Function.update r.chats agent_id (insert conversation_id (r.chats agent_id))
    active := Function.update r.active conversation_id
      (some { agent_id := agent_id, status := "active" }) }

section Routing

variable (find : String → String → Option Bool)

/-- The skill test. An empty `required_skill` asks for nothing and is not looked up. -/
def hasSkill (r : Router) (required_skill agent_id : String) : Option Bool :=
  if required_skill = "" then some true
  else find ("," ++ (r.skills agent_id).getD "" ++ ",") ("," ++ required_skill ++ ",")

/-- The loop of `_ROUTE_LUA` over the candidates that are left. -/
def routeLoop (conversation_id required_skill : String) :
    List (String × ℤ) → Router → Reply × Router
  | [], r => (.nil, r)
  | (agent_id, active_count) :: candidates, r =>
    if r.status agent_id ≠ some "online" then
      routeLoop conversation_id required_skill candidates (r.prune agent_id)
    else if active_count < (r.maxChats agent_id).getD 5 then
      match r.hasSkill find required_skill agent_id with
      | none => (.error, r)
      | some false => routeLoop conversation_id required_skill candidates r
      | some true => (.assigned agent_id, r.assign agent_id conversation_id)
    else routeLoop conversation_id required_skill candidates r

/-- `_ROUTE_LUA`: the candidates are read once, by ascending score from `0`. -/
def routeLua (r : Router) (conversation_id required_skill : String) : Reply × Router :=
  routeLoop find conversation_id required_skill (r.available.rangeFrom 0) r

/-- The agent that `chat:active` names for a conversation. -/
def holder (r : Router) (conversation_id : String) : Option String :=
  (r.active conversation_id).map ActiveChat.agent_id

/-! ### Releasing

`release_agent_slot` is two Redis steps. Other steps may come between them. -/

/-- The `HGET` of `release_agent_slot`; an empty agent id counts as none. -/
def releaseRead (r : Router) (conversation_id : String) : Option String :=
  (r.holder conversation_id).filter (· ≠ "")

/-- The pipeline of `release_agent_slot`: `ZINCRBY -1`, `SREM`, `DEL`. -/
def releaseExec (r : Router) (agent_id conversation_id : String) : Router :=
  { r with
    available := r.available.incrBy (-1) agent_id
    chats := Function.update r.chats agent_id ((r.chats agent_id).erase conversation_id)
    active := Function.update r.active conversation_id none }

/-- `release_agent_slot` with nothing in between. -/
def releaseAgentSlot (r : Router) (conversation_id : String) : Router :=
  match r.releaseRead conversation_id with
  | none => r
  | some agent_id => r.releaseExec agent_id conversation_id

/-! ### The script without its loop -/

/-- The candidate stops the loop: it is online, has room, and the skill test does not say no. -/
def stops (r : Router) (required_skill : String) (p : String × ℤ) : Bool :=
  r.status p.1 = some "online" && p.2 < (r.maxChats p.1).getD 5 &&
    r.hasSkill find required_skill p.1 ≠ some false

/-- The least-loaded agent that is online, has room and has the skill, in the order of the sorted
set; `none` also when the skill test of an earlier candidate fails with an error. -/
def leastLoaded (r : Router) (required_skill : String) : Option String :=
  match (r.available.rangeFrom 0).find? (r.stops find required_skill) with
  | none => none
  | some (agent_id, _) =>
    if r.hasSkill find required_skill agent_id = some true then some agent_id else none

/-- Remove a list of agents from `agent:available`. -/
def pruneAll (r : Router) (agents : List String) : Router :=
  { r with available := r.available.eraseAll agents }

/-- The members that the loop prunes: the candidates that are not online, up to the stop. -/
def gone (r : Router) (required_skill : String) (candidates : List (String × ℤ)) : List String :=
  ((candidates.takeWhile fun p => !r.stops find required_skill p).filter
    fun p => r.status p.1 ≠ some "online").map Prod.fst

theorem status_of_mem_gone {r : Router} {required_skill : String}
    {candidates : List (String × ℤ)} {a : String}
    (h : a ∈ r.gone find required_skill candidates) : r.status a ≠ some "online" := by
  obtain ⟨p, hp, rfl⟩ := List.mem_map.mp h
  simpa using (List.mem_filter.mp hp).2

/-- **The loop, as one expression.** It prunes the candidates that are not online up to the first
one that stops it, and that one decides the reply. -/
theorem routeLoop_eq (conversation_id required_skill : String)
    (candidates : List (String × ℤ)) (r : Router) :
    routeLoop find conversation_id required_skill candidates r =
      let r' := r.pruneAll (r.gone find required_skill candidates)
      match candidates.find? (r.stops find required_skill) with
      | none => (.nil, r')
      | some (agent_id, _) =>
        if r.hasSkill find required_skill agent_id = some true
        then (.assigned agent_id, r'.assign agent_id conversation_id) else (.error, r') := by
  induction candidates generalizing r with
  | nil => rfl
  | cons p candidates ih =>
    obtain ⟨agent_id, active_count⟩ := p
    rw [routeLoop]
    by_cases hon : r.status agent_id = some "online"
    · rw [if_neg (not_not.mpr hon)]
      by_cases hroom : active_count < (r.maxChats agent_id).getD 5
      · rw [if_pos hroom]
        cases hskill : r.hasSkill find required_skill agent_id with
        | none =>
          have hs : r.stops find required_skill (agent_id, active_count) = true := by
            simp [stops, hon, hroom, hskill]
          simp [gone, hs, hskill, pruneAll, SortedSet.eraseAll]
        | some b =>
          cases b with
          | true =>
            have hs : r.stops find required_skill (agent_id, active_count) = true := by
              simp [stops, hon, hroom, hskill]
            simp [gone, hs, hskill, pruneAll, SortedSet.eraseAll]
          | false =>
            have hs : r.stops find required_skill (agent_id, active_count) = false := by
              simp [stops, hskill]
            simp [gone, hs, hon, ih]
      · have hs : r.stops find required_skill (agent_id, active_count) = false := by
          simp [stops, hroom]
        simp [gone, hs, hon, hroom, ih]
    · have hs : r.stops find required_skill (agent_id, active_count) = false := by
        simp [stops, hon]
      rw [if_pos hon, ih]
      simp only [gone, List.takeWhile_cons, List.find?_cons, hs, Bool.not_false, if_true,
        List.filter_cons, hon, ne_eq, not_false_eq_true, decide_true, List.map_cons]
      rfl

theorem lookup_pruneAll (r : Router) (agents : List String) (a : String) :
    (r.pruneAll agents).available.lookup a =
      if a ∈ agents then none else r.available.lookup a :=
  SortedSet.lookup_eraseAll _ _ _

/-- **The two ways a run of the script ends.** Either nobody is assigned and only members that are
not online have been pruned, or the least-loaded agent is, and nothing else has changed. -/
theorem routeLua_cases (r : Router) (conversation_id required_skill : String) :
    ∃ agents, (∀ a ∈ agents, r.status a ≠ some "online") ∧
      ((r.leastLoaded find required_skill = none ∧
          (r.routeLua find conversation_id required_skill).2 = r.pruneAll agents ∧
          ∀ a, (r.routeLua find conversation_id required_skill).1 ≠ .assigned a) ∨
        ∃ a n, r.leastLoaded find required_skill = some a ∧ r.available.lookup a = some n ∧
          0 ≤ n ∧ n < (r.maxChats a).getD 5 ∧ r.status a = some "online" ∧
          r.routeLua find conversation_id required_skill =
            (.assigned a, (r.pruneAll agents).assign a conversation_id)) := by
  refine ⟨r.gone find required_skill (r.available.rangeFrom 0),
    fun a ha => status_of_mem_gone find ha, ?_⟩
  rw [routeLua, routeLoop_eq, leastLoaded]
  cases hf : (r.available.rangeFrom 0).find? (r.stops find required_skill) with
  | none => exact Or.inl ⟨rfl, rfl, by simp⟩
  | some p =>
    obtain ⟨a, n⟩ := p
    by_cases hskill : r.hasSkill find required_skill a = some true
    · have hmem := SortedSet.mem_rangeFrom.mp (List.mem_of_find?_eq_some hf)
      have hstops := List.find?_some hf
      simp only [stops, Bool.and_eq_true, decide_eq_true_eq] at hstops
      exact Or.inr ⟨a, n, by simp [hskill], hmem.1, hmem.2, hstops.1.2, hstops.1.1,
        by simp [hskill]⟩
    · exact Or.inl ⟨by simp [hskill], by simp [hskill], by simp [hskill]⟩

/-- The agent that `chat:active` names after a run of the script. -/
theorem holder_routeLua (r : Router) (conversation_id required_skill d : String) :
    (r.routeLua find conversation_id required_skill).2.holder d =
      match r.leastLoaded find required_skill with
      | none => r.holder d
      | some a => if d = conversation_id then some a else r.holder d := by
  obtain ⟨agents, -, ⟨hleast, hr, -⟩ | ⟨a, n, hleast, -, -, -, -, hr⟩⟩ :=
    r.routeLua_cases find conversation_id required_skill
  · rw [hleast, hr]
    rfl
  · rw [hleast, hr]
    simp only [holder, assign, pruneAll, Function.update_apply]
    split <;> rfl

end Routing

/-- `releaseAgentSlot` when the conversation names an agent, and when it does not. -/
theorem releaseAgentSlot_of_some {r : Router} {conversation_id agent_id : String}
    (h : r.releaseRead conversation_id = some agent_id) :
    r.releaseAgentSlot conversation_id = r.releaseExec agent_id conversation_id := by
  rw [releaseAgentSlot, h]

theorem releaseAgentSlot_of_none {r : Router} {conversation_id : String}
    (h : r.releaseRead conversation_id = none) : r.releaseAgentSlot conversation_id = r := by
  rw [releaseAgentSlot, h]

theorem releaseRead_eq_some {r : Router} {conversation_id agent_id : String} :
    r.releaseRead conversation_id = some agent_id ↔
      agent_id ≠ "" ∧ r.holder conversation_id = some agent_id := by
  rw [releaseRead, Option.filter_eq_some_iff, decide_eq_true_eq, and_comm]

theorem releaseRead_routeLua (find : String → String → Option Bool) (r : Router)
    (conversation_id required_skill d : String) :
    (r.routeLua find conversation_id required_skill).2.releaseRead d =
      match r.leastLoaded find required_skill with
      | none => r.releaseRead d
      | some a => if d = conversation_id then (some a).filter (· ≠ "") else r.releaseRead d := by
  rw [releaseRead, holder_routeLua]
  cases r.leastLoaded find required_skill with
  | none => rfl
  | some a => simp only [apply_ite (Option.filter _), releaseRead]

theorem releaseRead_releaseAgentSlot (r : Router) (conversation_id d : String) :
    (r.releaseAgentSlot conversation_id).releaseRead d =
      if d = conversation_id then none else r.releaseRead d := by
  cases h : r.releaseRead conversation_id with
  | none =>
    rw [releaseAgentSlot_of_none h]
    split
    · next hd => rw [hd, h]
    · rfl
  | some a =>
    rw [releaseAgentSlot_of_some h]
    simp only [releaseRead, holder, releaseExec, Function.update_apply]
    split <;> rfl

end Router

end TitanChat
