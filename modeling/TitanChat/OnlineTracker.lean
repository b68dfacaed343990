import Mathlib.Data.Finset.Basic
import TitanChat.Internal.Json
import TitanChat.Internal.SortedSet

/-!
# The tracker of online chats

The Redis keys of `shared/cache/online_chat_tracker.py` and the operations on them. A hash that has
no fields does not exist, so `HSET` on a missing key creates it with the fields it writes, and no
others.

`chat_offline` is a read and a pipeline; its pipeline uses the fields that the read has found.

## Main definitions

* `Tracker`
* `chatOnline`, `chatAssigned`, `chatMessageReceived`, `chatOfflineExec`
-/

namespace TitanChat

/-- The keys `online:*`. -/
structure Tracker where
  /-- `online:chats`. -/
  chats : Finset String
  /-- `online:chats:by_time`, scores in microseconds. -/
  byTime : SortedSet String ℤ
  /-- `online:chats:user:{user_id}`. -/
  ofUser : String → Finset String
  /-- `online:chats:agent:{agent_id}`. -/
  ofAgent : String → Finset String
  /-- `online:chat:{conversation_id}`. -/
  chat : String → Dict String

namespace Tracker

/-- No keys. -/
def empty : Tracker where
  chats := ∅
  byTime := ∅
  ofUser _ := ∅
  ofAgent _ := ∅
  chat _ := ∅

/-- `HSET` with a mapping. -/
def hset (hash : Dict String) (mapping : List (String × String)) : Dict String :=
  mapping.foldl (fun h f => h.insert f.1 f.2) hash

/-- `chat_online`, `now` in microseconds. -/
def chatOnline (t : Tracker) (conversation_id user_id server_id bot_id : String) (now : ℤ) :
    Tracker :=
  { t with
    chats := insert conversation_id t.chats
    byTime := t.byTime.insert conversation_id now
    ofUser := Function.update t.ofUser user_id (insert conversation_id (t.ofUser user_id))
    chat := Function.update t.chat conversation_id (hset (t.chat conversation_id)
      [("user_id", user_id), ("bot_id", bot_id), ("agent_id", ""), ("server_id", server_id),
        ("status", "queued"), ("started_at", toString (now / 1000000)),
        ("last_msg_at", toString (now / 1000000))]) }

/-- `chat_assigned`. -/
def chatAssigned (t : Tracker) (conversation_id agent_id : String) : Tracker :=
  { t with
    chat := Function.update t.chat conversation_id (hset (t.chat conversation_id)
      [("agent_id", agent_id), ("status", "active")])
    ofAgent := Function.update t.ofAgent agent_id (insert conversation_id (t.ofAgent agent_id)) }

/-- `chat_message_received`. -/
def chatMessageReceived (t : Tracker) (conversation_id : String) (now : ℤ) : Tracker :=
  { t with
    chat := Function.update t.chat conversation_id (hset (t.chat conversation_id)
      [("last_msg_at", toString (now / 1000000))]) }

/-- Remove from a set of the index, unless its name is empty. -/
def unindex (index : String → Finset String) (name conversation_id : String) :
    String → Finset String :=
  if name = "" then index
  else Function.update index name ((index name).erase conversation_id)

/-- The pipeline of `chat_offline`, with what `HGETALL` has returned. -/
def chatOfflineExec (t : Tracker) (conversation_id : String) (meta_ : Dict String) : Tracker where
  chats := t.chats.erase conversation_id
  byTime := t.byTime.erase conversation_id
  ofUser := unindex t.ofUser ((meta_.lookup "user_id").getD "") conversation_id
  ofAgent := unindex t.ofAgent ((meta_.lookup "agent_id").getD "") conversation_id
  chat := Function.update t.chat conversation_id ∅

/-- `chat_offline` with nothing in between. -/
def chatOffline (t : Tracker) (conversation_id : String) : Tracker :=
  if (t.chat conversation_id).entries.isEmpty then t
  else t.chatOfflineExec conversation_id (t.chat conversation_id)

/-- The agent that the hash shows, if it exists and has one. -/
def shownAgent (t : Tracker) (conversation_id : String) : Option String :=
  (t.chat conversation_id).lookup "agent_id"

theorem lookup_hset_of_notMem {hash : Dict String} {mapping : List (String × String)}
    {field : String} (h : ∀ f ∈ mapping, f.1 ≠ field) :
    (hset hash mapping).lookup field = hash.lookup field := by
  induction mapping generalizing hash with
  | nil => rfl
  | cons f fs ih =>
    rw [hset, List.foldl_cons, ← hset, ih fun g hg => h g (List.mem_cons_of_mem _ hg)]
    exact AList.lookup_insert_ne (h f (List.mem_cons_self ..)).symm

@[simp] theorem shownAgent_chatOnline (t : Tracker) (c user_id server_id bot_id : String) (now : ℤ)
    (d : String) : (t.chatOnline c user_id server_id bot_id now).shownAgent d =
      if d = c then some "" else t.shownAgent d := by
  simp only [shownAgent, chatOnline, Function.update_apply]
  split
  · simp [hset, AList.lookup_insert_ne]
  · rfl

@[simp] theorem shownAgent_chatAssigned (t : Tracker) (c a d : String) :
    (t.chatAssigned c a).shownAgent d = if d = c then some a else t.shownAgent d := by
  simp only [shownAgent, chatAssigned, Function.update_apply]
  split
  · simp [hset, AList.lookup_insert_ne]
  · rfl

@[simp] theorem shownAgent_chatMessageReceived (t : Tracker) (c : String) (now : ℤ) (d : String) :
    (t.chatMessageReceived c now).shownAgent d = t.shownAgent d := by
  simp only [shownAgent, chatMessageReceived, Function.update_apply]
  split
  · next h => rw [lookup_hset_of_notMem (by simp), h]
  · rfl

@[simp] theorem shownAgent_chatOfflineExec (t : Tracker) (c : String) (meta_ : Dict String)
    (d : String) : (t.chatOfflineExec c meta_).shownAgent d =
      if d = c then none else t.shownAgent d := by
  simp only [shownAgent, chatOfflineExec, Function.update_apply]
  split <;> rfl

theorem shownAgent_of_isEmpty {t : Tracker} {c : String}
    (h : (t.chat c).entries.isEmpty = true) : t.shownAgent c = none := by
  have hchat : t.chat c = ∅ := AList.ext (List.isEmpty_iff.mp h)
  rw [shownAgent, hchat]
  rfl

@[simp] theorem shownAgent_chatOffline (t : Tracker) (c d : String) :
    (t.chatOffline c).shownAgent d = if d = c then none else t.shownAgent d := by
  rw [chatOffline]
  cases hempty : (t.chat c).entries.isEmpty with
  | false => exact shownAgent_chatOfflineExec ..
  | true =>
    by_cases hd : d = c
    · simp [hd, shownAgent_of_isEmpty hempty]
    · simp [hd]

end Tracker

end TitanChat
