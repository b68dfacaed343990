import Mathlib.Data.Finset.Card
import Mathlib.Data.String.Basic
import TitanChat.Internal.Transition
import TitanChat.OnlineTracker

/-!
# Calls to the tracker

Any number of gateways and consumers call the tracker. A pipeline is one step, so only
`chat_offline` can be interrupted, between its read and its pipeline, and any number of its calls
may be there at a time.

This module is about the two structures that list what is online, `online:chats` and
`online:chats:by_time`. All that changes one changes the other, in one pipeline, and a conversation
enters them together with its hash.

## Main definitions

* `Calls`, `Calls.step`: the calls, and what each step of them does
* `getOnlineCount`, `getAllOnlineChats`: what an admin sees
* `Aligned`: the two structures and the hashes agree

## Main results

* `Listing.step`: what every step keeps
* `aligned_always`: they agree in every state of every run
-/

namespace TitanChat

namespace Tracker

/-! ### Admin queries -/

/-- `get_online_count`. -/
def getOnlineCount (t : Tracker) : ℕ := t.chats.card

/-- A row of the list: the fields of the hash, with the conversation. -/
def row (t : Tracker) (conversation_id : String) : Dict String :=
  t.chat conversation_id ∪ AList.singleton "conversation_id" conversation_id

/-- `get_all_online_chats`. -/
def getAllOnlineChats (t : Tracker) (offset limit : ℤ) (newest_first : Bool) :
    List (Dict String) :=
  let conv_ids :=
    if newest_first then t.byTime.zrevrange offset (offset + limit - 1)
    else t.byTime.zrange offset (offset + limit - 1)
  (conv_ids.filter fun cid => !(t.chat cid).entries.isEmpty).map t.row

/-! ### Calls -/

/-- The tracker, with the calls of `chat_offline` that have read a hash. -/
structure Calls where
  tracker : Tracker
  /-- The conversation and the hash of each call. -/
  reads : ℕ → Option (String × Dict String)
  /-- The last operation on the conversation that is complete is a `chat_offline`. -/
  lastOffline : String → Bool

/-- No keys and no calls. -/
def Calls.empty : Calls := ⟨.empty, fun _ => none, fun _ => false⟩

/-- A step of a call. -/
inductive CallStep where
  | chatOnline (conversation_id user_id server_id bot_id : String) (now : ℤ)
  | chatAssigned (conversation_id agent_id : String)
  | chatMessageReceived (conversation_id : String) (now : ℤ)
  /-- `HGETALL` of call `i` of `chat_offline`, which ends there if the hash does not exist. -/
  | chatOfflineRead (i : ℕ) (conversation_id : String)
  /-- The pipeline of call `i`. -/
  | chatOfflineExec (i : ℕ)

namespace Calls

/-- The operation on a conversation is complete. -/
def complete (s : Calls) (conversation_id : String) (offline : Bool) (t : Tracker) : Calls :=
  { s with
    tracker := t
    lastOffline := Function.update s.lastOffline conversation_id offline }

/-- One step. -/
def step (s : Calls) : CallStep → Option Calls
  | .chatOnline c user_id server_id bot_id now =>
    some (s.complete c false (s.tracker.chatOnline c user_id server_id bot_id now))
  | .chatAssigned c agent_id => some (s.complete c false (s.tracker.chatAssigned c agent_id))
  | .chatMessageReceived c now =>
    some (s.complete c false (s.tracker.chatMessageReceived c now))
  | .chatOfflineRead i c =>
    match s.reads i with
    | some _ => none
    | none =>
      if (s.tracker.chat c).entries.isEmpty then some (s.complete c true s.tracker)
      else some { s with reads := Function.update s.reads i (some (c, s.tracker.chat c)) }
  | .chatOfflineExec i =>
    match s.reads i with
    | none => none
    | some (c, meta_) =>
      some { s.complete c true (s.tracker.chatOfflineExec c meta_) with
        reads := Function.update s.reads i none }

variable {s s' : Calls} {i : ℕ}

/-- A call that reads ends there if the hash does not exist. -/
theorem of_chatOfflineRead {c : String} (h : s.step (.chatOfflineRead i c) = some s') :
    (s.tracker.chat c).entries.isEmpty ∧ s' = s.complete c true s.tracker ∨
      s' = { s with reads := Function.update s.reads i (some (c, s.tracker.chat c)) } := by
  rw [step] at h
  split at h
  · cases h
  · split at h
    · next hempty => exact Or.inl ⟨hempty, (Option.some.inj h).symm⟩
    · exact Or.inr (Option.some.inj h).symm

theorem of_chatOfflineExec (h : s.step (.chatOfflineExec i) = some s') :
    ∃ c meta_, s.reads i = some (c, meta_) ∧
      s' = { s.complete c true (s.tracker.chatOfflineExec c meta_) with
        reads := Function.update s.reads i none } := by
  rw [step] at h
  split at h
  · cases h
  · next c meta_ hread => exact ⟨c, meta_, hread, (Option.some.inj h).symm⟩

end Calls

/-! ### Hashes -/

theorem mem_hset_of_mem {hash : Dict String} {field : String} (h : field ∈ hash)
    (mapping : List (String × String)) : field ∈ hset hash mapping := by
  induction mapping generalizing hash with
  | nil => exact h
  | cons f fs ih => exact ih ((AList.mem_insert hash).mpr (Or.inr h))

/-- `HSET` leaves a hash with fields. -/
theorem hset_ne_empty (hash : Dict String) (f : String × String) (fs : List (String × String)) :
    hset hash (f :: fs) ≠ ∅ := by
  intro hempty
  have hfirst : f.1 ∈ hash.insert f.1 f.2 := (AList.mem_insert hash).mpr (Or.inl rfl)
  have hmem : f.1 ∈ hset hash (f :: fs) := mem_hset_of_mem hfirst fs
  rw [hempty] at hmem
  exact AList.notMem_empty f.1 hmem

theorem isEmpty_entries_iff {hash : Dict String} : hash.entries.isEmpty = true ↔ hash = ∅ := by
  rw [List.isEmpty_iff, AList.ext_iff]
  rfl

/-! ### What every step keeps -/

/-- The two structures and the hashes agree. -/
structure Listing (t : Tracker) : Prop where
  members : ∀ c, c ∈ t.chats ↔ (t.byTime.lookup c).isSome
  shown : ∀ c ∈ t.chats, t.chat c ≠ ∅
  /-- No hash has a field with the name that the rows add. -/
  unnamed : ∀ c, (t.chat c).lookup "conversation_id" = none

namespace Listing

variable {t : Tracker}

theorem empty : Listing .empty where
  members c := by simp [Tracker.empty]
  shown c hc := by simp [Tracker.empty] at hc
  unnamed c := by simp [Tracker.empty]

theorem chatOnline (h : Listing t) (c user_id server_id bot_id : String) (now : ℤ) :
    Listing (t.chatOnline c user_id server_id bot_id now) where
  members d := by
    simp only [Tracker.chatOnline, Finset.mem_insert, h.members]
    by_cases hd : d = c
    · subst hd
      simp
    · simp [hd, AList.lookup_insert_ne hd]
  shown d hd := by
    simp only [Tracker.chatOnline, Finset.mem_insert, Function.update_apply] at hd ⊢
    split
    · exact hset_ne_empty _ _ _
    · next hne => exact h.shown d (hd.resolve_left hne)
  unnamed d := by
    simp only [Tracker.chatOnline, Function.update_apply]
    split
    · rw [lookup_hset_of_notMem (by simp)]
      exact h.unnamed c
    · exact h.unnamed d

/-- An operation that only writes fields of the hash. -/
theorem of_hset (h : Listing t) {t' : Tracker} {c : String} {f : String × String}
    {fs : List (String × String)} (hchats : t'.chats = t.chats) (htime : t'.byTime = t.byTime)
    (hchat : t'.chat = Function.update t.chat c (hset (t.chat c) (f :: fs)))
    (hfields : ∀ g ∈ f :: fs, g.1 ≠ "conversation_id") : Listing t' where
  members d := by rw [hchats, htime, h.members]
  shown d hd := by
    rw [hchat, Function.update_apply]
    split
    · exact hset_ne_empty _ _ _
    · exact h.shown d (hchats ▸ hd)
  unnamed d := by
    rw [hchat, Function.update_apply]
    split
    · rw [lookup_hset_of_notMem hfields]
      exact h.unnamed c
    · exact h.unnamed d

theorem chatAssigned (h : Listing t) (c agent_id : String) :
    Listing (t.chatAssigned c agent_id) :=
  h.of_hset rfl rfl rfl (by simp)

theorem chatMessageReceived (h : Listing t) (c : String) (now : ℤ) :
    Listing (t.chatMessageReceived c now) :=
  h.of_hset rfl rfl rfl (by simp)

/-- Whatever the read has found. -/
theorem chatOfflineExec (h : Listing t) (c : String) (meta_ : Dict String) :
    Listing (t.chatOfflineExec c meta_) where
  members d := by
    simp only [Tracker.chatOfflineExec, Finset.mem_erase, h.members]
    by_cases hd : d = c
    · subst hd
      simp
    · simp [hd, AList.lookup_erase_ne hd]
  shown d hd := by
    obtain ⟨hne, hd⟩ := Finset.mem_erase.mp hd
    simp only [Tracker.chatOfflineExec, Function.update_of_ne hne]
    exact h.shown d hd
  unnamed d := by
    simp only [Tracker.chatOfflineExec, Function.update_apply]
    split
    · rfl
    · exact h.unnamed d

/-- **The two structures are kept in step.** -/
theorem step {s s' : Calls} (h : Listing s.tracker) {a : CallStep} (hs : s.step a = some s') :
    Listing s'.tracker := by
  cases a with
  | chatOnline c user_id server_id bot_id now =>
    obtain rfl := Option.some.inj hs
    exact h.chatOnline c user_id server_id bot_id now
  | chatAssigned c agent_id =>
    obtain rfl := Option.some.inj hs
    exact h.chatAssigned c agent_id
  | chatMessageReceived c now =>
    obtain rfl := Option.some.inj hs
    exact h.chatMessageReceived c now
  | chatOfflineRead i c =>
    obtain ⟨-, rfl⟩ | rfl := Calls.of_chatOfflineRead hs
    · exact h
    · exact h
  | chatOfflineExec i =>
    obtain ⟨c, meta_, -, rfl⟩ := Calls.of_chatOfflineExec hs
    exact h.chatOfflineExec c meta_

end Listing

/-! ### What an admin sees -/

/-- The rows are one for each online conversation. -/
structure Lists (t : Tracker) (rows : List (Dict String)) : Prop where
  count : rows.length = t.getOnlineCount
  once : ∃ ids : List String, ids.Nodup ∧ (∀ c, c ∈ ids ↔ c ∈ t.chats) ∧
    rows.map (·.lookup "conversation_id") = ids.map some

/-- **The primary structures agree**, and so do the count and the list. -/
structure Aligned (t : Tracker) : Prop where
  members : ∀ c, c ∈ t.chats ↔ (t.byTime.lookup c).isSome
  shown : ∀ c ∈ t.chats, t.chat c ≠ ∅
  listed : ∀ limit : ℤ, t.chats.card ≤ limit → ∀ newest_first,
    t.Lists (t.getAllOnlineChats 0 limit newest_first)

theorem lookup_row {t : Tracker} (h : Listing t) (c : String) :
    (t.row c).lookup "conversation_id" = some c := by
  rw [row, AList.lookup_union_right (AList.lookup_eq_none.mp (h.unnamed c))]
  exact AList.lookup_insert (∅ : Dict String)

/-- All members in any order. -/
theorem Listing.lists {t : Tracker} (h : Listing t) {ids : List String} (hnodup : ids.Nodup)
    (hids : ∀ c, c ∈ ids ↔ c ∈ t.chats) :
    t.Lists ((ids.filter fun cid => !(t.chat cid).entries.isEmpty).map t.row) := by
  have hall : (ids.filter fun cid => !(t.chat cid).entries.isEmpty) = ids := by
    refine List.filter_eq_self.mpr fun c hc => ?_
    have hshown := h.shown c ((hids c).mp hc)
    simpa [← isEmpty_entries_iff] using hshown
  have hset : ids.toFinset = t.chats := by
    ext c
    rw [List.mem_toFinset, hids]
  rw [hall]
  refine ⟨?_, ids, hnodup, hids, ?_⟩
  · rw [List.length_map, getOnlineCount, ← hset, List.toFinset_card_of_nodup hnodup]
  · rw [List.map_map]
    exact List.map_congr_left fun c _ => lookup_row h c

theorem Listing.aligned {t : Tracker} (h : Listing t) : Aligned t where
  members := h.members
  shown := h.shown
  listed limit hlimit newest_first := by
    have hnodup := t.byTime.nodup_ranked
    have hids (c : String) : c ∈ t.byTime.ranked.map Prod.fst ↔ c ∈ t.chats := by
      rw [SortedSet.mem_map_ranked, h.members]
    have hset : (t.byTime.ranked.map Prod.fst).toFinset = t.chats := by
      ext c
      rw [List.mem_toFinset, hids]
    have hlength : ((t.byTime.ranked.map Prod.fst).length : ℤ) ≤ limit := by
      rwa [← List.toFinset_card_of_nodup hnodup, hset]
    cases newest_first with
    | true =>
      rw [getAllOnlineChats, if_pos rfl, SortedSet.zrevrange,
        SortedSet.slice_of_length_le (by rwa [List.length_reverse])]
      exact h.lists (List.nodup_reverse.mpr hnodup) fun c => by rw [List.mem_reverse, hids]
    | false =>
      rw [getAllOnlineChats, if_neg Bool.false_ne_true, SortedSet.zrange,
        SortedSet.slice_of_length_le hlength]
      exact h.lists hnodup hids

/-- **The tracker never drifts apart**, in any state of any run. -/
theorem aligned_always (schedule : List CallStep) :
    Transition.Always Calls.step (fun s => s.tracker.Aligned) .empty schedule :=
  (Transition.always_of_invariant (fun _ _ _ h hs => Listing.step h hs) Listing.empty
    schedule).imp fun _ h => Listing.aligned h

end Tracker

end TitanChat
