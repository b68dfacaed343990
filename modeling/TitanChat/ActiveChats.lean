import TitanChat.AgentRouter
import TitanChat.Internal.Removal

/-!
# The list of active chats

`get_active_chats` in `shared/cache/agent_router.py`: the keys that match `chat:active:*` are
scanned, the hash of each of them is read, and the conversation id is recovered from the key.

## Two things that go wrong

* The id is recovered by `key.replace("chat:active:", "")`, which removes the text wherever it
  stands. A conversation may be called anything: the id comes from the address that the client
  opened. One whose id contains `chat:active:` is listed under another id.
* A scan may return a key more than once, and the conversation is then listed as often.

Two such ids could still stand in for each other, so that all are listed after all? They cannot:
the id that is listed is shorter than the one it is listed for, so among finitely many conversations
the longest of these ids would be missing (`Removal.eq_self_of_shrinks`).

## Main definitions

* `Scan`: the keys that a complete iteration returns
* `getActiveChats`
* `ListsOwnIds`: each routed conversation is listed once, under its id and with its agent
* `PlainKeys`: the ids and the scans for which this holds

## Main results

* `filter_getActiveChats`: how often a conversation is listed
* `listsOwnIds_iff`
-/

namespace TitanChat

namespace Router

/-- The text before the conversation id in a key. -/
def activePrefix : String := "chat:active:"

/-- The key `chat:active:{conversation_id}`. -/
def activeKey (conversation_id : String) : String := activePrefix ++ conversation_id

/-- `client.scan_iter("chat:active:*")` until it ends. Every key that is there throughout is
returned, maybe repeatedly and in any order; a key whose hash is gone by now may be among them. -/
structure Scan (r : Router) where
  keys : List String
  /-- Only keys that match the pattern are returned. -/
  matching : ∀ key ∈ keys, activePrefix.toList <+: key.toList
  /-- Every conversation that an agent holds is returned. -/
  complete : ∀ conversation_id, (r.holder conversation_id).isSome →
    activeKey conversation_id ∈ keys

/-- `HGETALL` of a key that matches the pattern; an empty hash is no hash. -/
def hgetall (r : Router) (key : String) : Option ActiveChat :=
  (key.toList.dropPrefix? activePrefix.toList).bind fun id => r.active (String.ofList id)

/-- `key.replace("chat:active:", "")`. -/
def conversationIdOf (key : String) : String :=
  String.ofList (Removal.replace activePrefix.toList [] key.toList)

/-- An entry `{"conversation_id": conv_id, **data}`. -/
structure ListedChat extends ActiveChat where
  conversation_id : String
  deriving DecidableEq, Repr

/-- `get_active_chats`, from the scanned keys on. A key without a hash is skipped. -/
def getActiveChats (r : Router) (keys : List String) : List ListedChat :=
  keys.filterMap fun key =>
    (r.hgetall key).map fun data => { data with conversation_id := conversationIdOf key }

/-- Each conversation that an agent holds is listed exactly once, with that agent. -/
def ListsOwnIds (r : Router) (keys : List String) : Prop :=
  ∀ conversation_id agent_id, r.holder conversation_id = some agent_id →
    ∃ chat, (r.getActiveChats keys).filter (·.conversation_id = conversation_id) = [chat] ∧
      chat.agent_id = agent_id

/-- No id of a routed conversation contains the prefix, and none of their keys is repeated. -/
structure PlainKeys (r : Router) (keys : List String) : Prop where
  ids : ∀ conversation_id, (r.holder conversation_id).isSome →
    ¬activePrefix.toList <:+: conversation_id.toList
  once : ∀ conversation_id, (r.holder conversation_id).isSome →
    keys.count (activeKey conversation_id) ≤ 1

variable {r : Router} {keys : List String} {c : String} {data : ActiveChat}

/-! ### Keys and ids -/

theorem activePrefix_ne_nil : activePrefix.toList ≠ [] := by decide

@[simp] theorem toList_activeKey (c : String) :
    (activeKey c).toList = activePrefix.toList ++ c.toList :=
  String.toList_append

theorem activeKey_injective : Function.Injective activeKey := fun c d h => by
  have hlist := congrArg String.toList h
  rw [toList_activeKey, toList_activeKey] at hlist
  exact String.toList_injective (List.append_cancel_left hlist)

theorem hgetall_activeKey (r : Router) (c : String) : r.hgetall (activeKey c) = r.active c := by
  rw [hgetall, toList_activeKey, List.dropPrefix?_append_of_beq _ (beq_self_eq_true _),
    Option.bind_some, String.ofList_toList]

/-- Whatever is read belongs to the key of a conversation. -/
theorem hgetall_eq_some {key : String} :
    r.hgetall key = some data ↔ ∃ c, key = activeKey c ∧ r.active c = some data := by
  refine ⟨fun h => ?_, ?_⟩
  · obtain ⟨id, hid, hdata⟩ := Option.bind_eq_some_iff.mp h
    obtain ⟨before, hkey, hbefore⟩ := List.dropPrefix?_eq_some_iff.mp hid
    refine ⟨String.ofList id, String.toList_injective ?_, hdata⟩
    rw [toList_activeKey, hkey, eq_of_beq hbefore, String.toList_ofList]
  · rintro ⟨c, rfl, hdata⟩
    rw [hgetall_activeKey, hdata]

/-- The prefix itself is removed, and whatever the id contains of the kind. -/
theorem toList_conversationIdOf (c : String) :
    (conversationIdOf (activeKey c)).toList =
      Removal.replace activePrefix.toList [] c.toList := by
  rw [conversationIdOf, String.toList_ofList, toList_activeKey,
    Removal.replace_append activePrefix_ne_nil, List.nil_append]

theorem conversationIdOf_eq_iff :
    conversationIdOf (activeKey c) = c ↔ ¬activePrefix.toList <:+: c.toList := by
  rw [← String.toList_inj, toList_conversationIdOf]
  exact Removal.remove_eq_self_iff activePrefix_ne_nil

theorem length_conversationIdOf_lt (h : conversationIdOf (activeKey c) ≠ c) :
    (conversationIdOf (activeKey c)).toList.length < c.toList.length := by
  rw [toList_conversationIdOf]
  exact Removal.length_remove_lt activePrefix_ne_nil (not_not.mp (mt conversationIdOf_eq_iff.mpr h))

theorem holder_eq_some {a : String} :
    r.holder c = some a ↔ ∃ data, r.active c = some data ∧ data.agent_id = a :=
  Option.map_eq_some_iff

theorem isSome_holder (hdata : r.active c = some data) : (r.holder c).isSome := by
  rw [holder, hdata]
  rfl

/-! ### The list -/

theorem mem_getActiveChats {chat : ListedChat} :
    chat ∈ r.getActiveChats keys ↔
      ∃ c data, activeKey c ∈ keys ∧ r.active c = some data ∧
        { data with conversation_id := conversationIdOf (activeKey c) } = chat := by
  rw [getActiveChats, List.mem_filterMap]
  refine ⟨?_, ?_⟩
  · rintro ⟨key, hkey, hchat⟩
    obtain ⟨data, hget, hchat⟩ := Option.map_eq_some_iff.mp hchat
    obtain ⟨c, rfl, hdata⟩ := hgetall_eq_some.mp hget
    exact ⟨c, data, hkey, hdata, hchat⟩
  · rintro ⟨c, data, hkey, hdata, hchat⟩
    exact ⟨activeKey c, hkey, by rw [hgetall_activeKey, hdata, Option.map_some, hchat]⟩

/-- **How often a conversation is listed**: as often as its key was returned, if every id is
recovered from its key. -/
theorem filter_getActiveChats
    (hids : ∀ d, (r.holder d).isSome → conversationIdOf (activeKey d) = d)
    (hdata : r.active c = some data) (keys : List String) :
    (r.getActiveChats keys).filter (·.conversation_id = c) =
      List.replicate (keys.count (activeKey c)) { data with conversation_id := c } := by
  induction keys with
  | nil => rfl
  | cons key keys ih =>
    rw [getActiveChats, List.filterMap_cons]
    cases hget : r.hgetall key with
    | none =>
      have hne : key ≠ activeKey c := by
        rintro rfl
        rw [hgetall_activeKey, hdata] at hget
        cases hget
      rw [List.count_cons_of_ne hne]
      exact ih
    | some data' =>
      obtain ⟨d, rfl, hdata'⟩ := hgetall_eq_some.mp hget
      have hid := hids d (isSome_holder hdata')
      by_cases hd : d = c
      · subst hd
        rw [hdata] at hdata'
        cases hdata'
        rw [List.count_cons_self, List.replicate_succ, ← ih, Option.map_some, hid]
        exact List.filter_cons_of_pos (decide_eq_true rfl)
      · rw [List.count_cons_of_ne (activeKey_injective.ne hd), ← ih, Option.map_some, hid]
        exact List.filter_cons_of_neg (by simpa using hd)

/-- A complete scan has room for finitely many conversations. -/
theorem Scan.finite_routed (s : r.Scan) : {c | (r.holder c).isSome}.Finite :=
  ((List.finite_toSet s.keys).preimage activeKey_injective.injOn).subset fun c hc => s.complete c hc

/-! ### When the ids are right -/

theorem PlainKeys.listsOwnIds (s : r.Scan) (h : r.PlainKeys s.keys) : r.ListsOwnIds s.keys := by
  intro c a hholder
  obtain ⟨data, hdata, hagent⟩ := holder_eq_some.mp hholder
  have hrouted := isSome_holder hdata
  have hcount : s.keys.count (activeKey c) = 1 :=
    le_antisymm (h.once c hrouted) (List.count_pos_iff.mpr (s.complete c hrouted))
  have hids : ∀ d, (r.holder d).isSome → conversationIdOf (activeKey d) = d :=
    fun d hd => conversationIdOf_eq_iff.mpr (h.ids d hd)
  refine ⟨{ data with conversation_id := c }, ?_, hagent⟩
  rw [filter_getActiveChats hids hdata, hcount, List.replicate_one]

/-- Each id that is listed was recovered from some key, so all of them are left alone. -/
theorem ListsOwnIds.conversationIdOf_eq (s : r.Scan) (h : r.ListsOwnIds s.keys)
    (hrouted : (r.holder c).isSome) : conversationIdOf (activeKey c) = c := by
  refine Removal.eq_self_of_shrinks (f := fun d => conversationIdOf (activeKey d))
    s.finite_routed (fun d => d.toList.length) (fun d _ => length_conversationIdOf_lt) ?_ hrouted
  intro d hd
  obtain ⟨a, ha⟩ := Option.isSome_iff_exists.mp hd
  obtain ⟨chat, hlisted, -⟩ := h d a ha
  have hmem := List.mem_filter.mp (hlisted ▸ List.mem_singleton_self chat)
  obtain ⟨e, data, -, hdata, hchat⟩ := mem_getActiveChats.mp hmem.1
  refine ⟨e, isSome_holder hdata, ?_⟩
  rw [← of_decide_eq_true hmem.2, ← hchat]

theorem ListsOwnIds.plainKeys (s : r.Scan) (h : r.ListsOwnIds s.keys) : r.PlainKeys s.keys where
  ids _ hrouted := conversationIdOf_eq_iff.mp (h.conversationIdOf_eq s hrouted)
  once c hrouted := by
    obtain ⟨a, ha⟩ := Option.isSome_iff_exists.mp hrouted
    obtain ⟨data, hdata, -⟩ := holder_eq_some.mp ha
    obtain ⟨chat, hlisted, -⟩ := h c a ha
    rw [filter_getActiveChats (fun d hd => h.conversationIdOf_eq s hd) hdata] at hlisted
    have hlength := congrArg List.length hlisted
    rw [List.length_replicate] at hlength
    exact hlength.le

/-- **Active chats under their own ids.** Each routed conversation is listed once, as itself and
with its agent, if and only if no routed id contains `chat:active:` and the scan returned none of
their keys twice. -/
theorem listsOwnIds_iff (s : r.Scan) : r.ListsOwnIds s.keys ↔ r.PlainKeys s.keys :=
  ⟨fun h => h.plainKeys s, fun h => h.listsOwnIds s⟩

/-! ### Ids that contain the prefix, keys that come twice -/

/-- One agent goes online and one conversation is routed to it. -/
def routedOnce (conversation_id : String) : Router :=
  ((empty.agentGoOnline "agent-1" 5 []).routeLua (fun _ _ => some true) conversation_id "").2

theorem holder_routedOnce (c d : String) :
    (routedOnce c).holder d = if d = c then some "agent-1" else none := by
  have hleast : (empty.agentGoOnline "agent-1" 5 []).leastLoaded (fun _ _ => some true) "" =
      some "agent-1" := by decide
  rw [routedOnce, holder_routeLua, hleast]
  rfl

/-- The key of the only conversation, and so many repetitions of it. -/
def scanRepeated (conversation_id : String) (repetitions : ℕ) :
    (routedOnce conversation_id).Scan where
  keys := List.replicate (repetitions + 1) (activeKey conversation_id)
  matching key hkey := by
    rw [List.eq_of_mem_replicate hkey, toList_activeKey]
    exact List.prefix_append _ _
  complete d hd := by
    rw [holder_routedOnce] at hd
    split at hd
    · next hdc => exact List.mem_replicate.mpr ⟨Nat.succ_ne_zero _, congrArg activeKey hdc⟩
    · cases hd

/-- **Listed under another id, and listed twice.** -/
theorem not_listsOwnIds :
    ¬(routedOnce "chat:active:1").ListsOwnIds (scanRepeated "chat:active:1" 0).keys ∧
      ¬(routedOnce "conv-1").ListsOwnIds (scanRepeated "conv-1" 1).keys := by
  have hrouted (c : String) : ((routedOnce c).holder c).isSome := by
    rw [holder_routedOnce, if_pos rfl]
    rfl
  refine ⟨fun h => ?_, fun h => ?_⟩
  · exact (h.plainKeys (scanRepeated _ 0)).ids "chat:active:1" (hrouted _) (by decide)
  · have honce := (h.plainKeys (scanRepeated _ 1)).once "conv-1" (hrouted _)
    rw [scanRepeated, List.count_replicate_self] at honce
    exact absurd honce (by decide)

end Router

end TitanChat
