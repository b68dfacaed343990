import TitanChat.GatewayAuth
import TitanChat.OnlinePages

/-!
# The online chats that the gateway shows

`GET /admin/chats/online` calls Redis three times: for a page of the sorted set, for the hashes of
the page, and for the count. The gateways and the consumers go on in between, so the three answers
may be of different times. With a `status` the page is that of the ten thousand newest chats, and
the hashes are filtered.

A chat is queued until it is assigned, and then active. It is never `transferring`, the third status
that `get_online_chats_by_status` names, and there is no other: an online chat is in one of two
lists.

## Main definitions

* `pageIds`, `chatsOfIds`: the two calls of `get_all_online_chats`
* `getOnlineChatsByStatus`, `adminOnlineChats`: the source
* `Reports`, `Partitioned`: what is said of the response

## Main results

* `Statuses.step`: every chat has one of the two statuses
* `adminOnlineChats_of_run`: three calls at any three times of a run
-/

namespace TitanChat

namespace Tracker

/-! ### The source -/

/-- The first call of `get_all_online_chats`. -/
def pageIds (t : Tracker) (offset limit : ℤ) (newest_first : Bool) : List String :=
  if newest_first then t.byTime.zrevrange offset (offset + limit - 1)
  else t.byTime.zrange offset (offset + limit - 1)

/-- The second call, a pipeline, and the rows. -/
def chatsOfIds (t : Tracker) (conv_ids : List String) : List (Dict String) :=
  (conv_ids.filter fun cid => !(t.chat cid).entries.isEmpty).map t.row

/-- With nothing in between. -/
theorem chatsOfIds_pageIds (t : Tracker) (offset limit : ℤ) (newest_first : Bool) :
    t.chatsOfIds (t.pageIds offset limit newest_first) =
      t.getAllOnlineChats offset limit newest_first := rfl

/-- `get_online_chats_by_status`, with its two calls at `t` and `t'`. -/
def getOnlineChatsByStatus (t t' : Tracker) (status : String) : List (Dict String) :=
  (t'.chatsOfIds (t.pageIds 0 10000 true)).filter fun c => c.lookup "status" = some status

/-- The response of `admin_online_chats`. -/
structure OnlineChats where
  total_online : ℕ
  chats : List (Dict String)

/-- `admin_online_chats`, with its three calls at `t`, `t'` and `t''`. -/
def adminOnlineChats {Token : Type} (C : Crypto Token) (invalid : Token → String) (now : ℤ)
    (token : Authorization Token) (offset limit : ℤ) (status : Option String)
    (t t' t'' : Tracker) : Except HTTPException OnlineChats :=
  (requireAuth C invalid now token).map fun _ =>
    { total_online := t''.getOnlineCount
      chats :=
        match truthy status with
        | some status => getOnlineChatsByStatus t t' status
        | none => t'.chatsOfIds (t.pageIds offset limit true) }

/-! ### The status of a chat -/

/-- The status that the hash shows, if it exists and has one. -/
def shownStatus (t : Tracker) (conversation_id : String) : Option String :=
  (t.chat conversation_id).lookup "status"

@[simp] theorem shownStatus_chatOnline (t : Tracker) (c user_id server_id bot_id : String)
    (now : ℤ) (d : String) : (t.chatOnline c user_id server_id bot_id now).shownStatus d =
      if d = c then some "queued" else t.shownStatus d := by
  simp only [shownStatus, chatOnline, Function.update_apply]
  split
  · simp [hset, AList.lookup_insert_ne]
  · rfl

@[simp] theorem shownStatus_chatAssigned (t : Tracker) (c a d : String) :
    (t.chatAssigned c a).shownStatus d = if d = c then some "active" else t.shownStatus d := by
  simp only [shownStatus, chatAssigned, Function.update_apply]
  split
  · simp [hset]
  · rfl

@[simp] theorem shownStatus_chatMessageReceived (t : Tracker) (c : String) (now : ℤ) (d : String) :
    (t.chatMessageReceived c now).shownStatus d = t.shownStatus d := by
  simp only [shownStatus, chatMessageReceived, Function.update_apply]
  split
  · next h => rw [lookup_hset_of_notMem (by simp), h]
  · rfl

@[simp] theorem shownStatus_chatOfflineExec (t : Tracker) (c : String) (meta_ : Dict String)
    (d : String) : (t.chatOfflineExec c meta_).shownStatus d =
      if d = c then none else t.shownStatus d := by
  simp only [shownStatus, chatOfflineExec, Function.update_apply]
  split <;> rfl

/-- A hash has no other status, and an online chat has one. -/
structure Statuses (t : Tracker) : Prop where
  known : ∀ c st, t.shownStatus c = some st → st = "queued" ∨ st = "active"
  online : ∀ c ∈ t.chats, (t.shownStatus c).isSome

namespace Statuses

theorem empty : Statuses .empty where
  known _ _ h := by cases h
  online _ h := absurd h (Finset.notMem_empty _)

/-- One chat gets a status, or loses it when it goes offline. -/
theorem update {t t' : Tracker} (h : Statuses t) {c : String} {new : Option String}
    (hnew : ∀ st, new = some st → st = "queued" ∨ st = "active")
    (hstatus : ∀ d, t'.shownStatus d = if d = c then new else t.shownStatus d)
    (hchats : ∀ d ∈ t'.chats, (d = c → new.isSome) ∧ (d ≠ c → d ∈ t.chats)) : Statuses t' where
  known d st hst := by
    rw [hstatus] at hst
    split at hst
    · exact hnew st hst
    · exact h.known d st hst
  online d hd := by
    rw [hstatus]
    split
    · next heq => exact (hchats d hd).1 heq
    · next hne => exact h.online d ((hchats d hd).2 hne)

/-- **One step.** A hash that comes back after `chat_offline` is not online. -/
theorem step {s s' : Calls} (h : Statuses s.tracker) {a : CallStep} (hs : s.step a = some s') :
    Statuses s'.tracker := by
  cases a with
  | chatOnline c user_id server_id bot_id now =>
    obtain rfl := Option.some.inj hs
    exact h.update (fun st hst => Or.inl (Option.some.inj hst).symm)
      (shownStatus_chatOnline s.tracker c user_id server_id bot_id now) fun d hd =>
        ⟨fun _ => rfl, fun hne => (Finset.mem_insert.mp hd).resolve_left hne⟩
  | chatAssigned c agent_id =>
    obtain rfl := Option.some.inj hs
    exact h.update (fun st hst => Or.inr (Option.some.inj hst).symm)
      (shownStatus_chatAssigned s.tracker c agent_id) fun d hd => ⟨fun _ => rfl, fun _ => hd⟩
  | chatMessageReceived c now =>
    obtain rfl := Option.some.inj hs
    have hstatus := shownStatus_chatMessageReceived s.tracker c now
    exact ⟨fun d st hst => h.known d st ((hstatus d).symm.trans hst), fun d hd => by
      rw [Calls.complete, hstatus]
      exact h.online d hd⟩
  | chatOfflineRead i c =>
    obtain ⟨-, rfl⟩ | rfl := Calls.of_chatOfflineRead hs
    · exact ⟨h.known, h.online⟩
    · exact ⟨h.known, h.online⟩
  | chatOfflineExec i =>
    obtain ⟨c, meta_, -, rfl⟩ := Calls.of_chatOfflineExec hs
    refine h.update (fun st hst => by cases hst) (shownStatus_chatOfflineExec s.tracker c meta_)
      fun d hd => ?_
    obtain ⟨hne, hd⟩ := Finset.mem_erase.mp hd
    exact ⟨fun heq => absurd heq hne, fun _ => hd⟩

end Statuses

/-! ### The three calls -/

/-- **The property of a response.** Its rows are those chats of the page that are still there. The
page, the hashes and the number may be of three different times. -/
structure Reports (t t' t'' : Tracker) (offset limit : ℤ) (status : Option String)
    (view : OnlineChats) : Prop where
  total : view.total_online = (t''.idsByStart true).length
  /-- Whatever the bounds are. -/
  rows : ∀ row ∈ view.chats, ∃ c ∈ t.chats, row = t'.row c ∧ row.lookup "conversation_id" = some c
  page : truthy status = none → ∀ o l : ℕ, offset = o → limit = l → ¬(o = 0 ∧ l = 0) →
    view.chats = ((((t.idsByStart true).drop o).take l).filter fun c =>
      !(t'.chat c).entries.isEmpty).map t'.row
  filtered : ∀ st, truthy status = some st → view.chats =
    (((t.idsByStart true).take 10000).filter fun c => t'.shownStatus c = some st).map t'.row
  /-- There are two lists by status. -/
  unknown : ∀ st, truthy status = some st → st ≠ "queued" → st ≠ "active" → view.chats = []

/-- The two lists by status are together the whole list, if it is not too long. -/
def Partitioned (t : Tracker) : Prop :=
  t.chats.card ≤ 10000 →
    (t.getOnlineChatsByStatus t "queued" ++ t.getOnlineChatsByStatus t "active").Perm
      ((t.idsByStart true).map t.row)

section Rows

variable {t t' : Tracker}

theorem pageIds_eq (t : Tracker) {offset limit : ℕ} (h : ¬(offset = 0 ∧ limit = 0)) :
    t.pageIds offset limit true = ((t.idsByStart true).drop offset).take limit :=
  SortedSet.slice_window _ h

/-- The column that the rows add is another one. -/
theorem lookup_status_row (t : Tracker) (c : String) :
    (t.row c).lookup "status" = t.shownStatus c := by
  rw [shownStatus, row]
  by_cases hc : "status" ∈ t.chat c
  · exact AList.lookup_union_left hc
  · rw [AList.lookup_union_right hc, AList.lookup_eq_none.mpr hc]
    rfl

/-- A hash with a status has fields. -/
theorem chat_nonempty_of_shownStatus {c st : String} (h : t.shownStatus c = some st) :
    (t.chat c).entries.isEmpty = false := by
  rw [Bool.eq_false_iff]
  intro hempty
  rw [shownStatus, isEmpty_entries_iff.mp hempty] at h
  cases h

theorem getOnlineChatsByStatus_eq (t t' : Tracker) (st : String) :
    t.getOnlineChatsByStatus t' st =
      (((t.idsByStart true).take 10000).filter fun c => t'.shownStatus c = some st).map t'.row := by
  have hids : t.pageIds 0 10000 true = (t.idsByStart true).take 10000 :=
    @pageIds_eq t 0 10000 (by simp)
  rw [getOnlineChatsByStatus, chatsOfIds, hids, List.filter_map, List.filter_filter]
  refine congrArg (List.map t'.row) (List.filter_congr fun c _ => ?_)
  rw [Function.comp_apply, lookup_status_row]
  by_cases hst : t'.shownStatus c = some st
  · simp [hst, chat_nonempty_of_shownStatus hst]
  · simp [hst]

/-- **Two lists.** -/
theorem Statuses.partitioned (h : Statuses t) (hlisting : Listing t) : Partitioned t := by
  intro hcard
  have hshort : (t.idsByStart true).take 10000 = t.idsByStart true :=
    List.take_of_length_le (by rwa [hlisting.length_idsByStart])
  rw [getOnlineChatsByStatus_eq, getOnlineChatsByStatus_eq, hshort, ← List.map_append]
  refine List.Perm.map _ ?_
  -- What is online and not queued is active.
  have hactive : (t.idsByStart true).filter (fun c => decide (t.shownStatus c = some "active")) =
      (t.idsByStart true).filter fun c => !decide (t.shownStatus c = some "queued") := by
    refine List.filter_congr fun c hc => ?_
    have honline := h.online c ((hlisting.members c).mpr (mem_idsByStart.mp hc))
    obtain ⟨st, hst⟩ := Option.isSome_iff_exists.mp honline
    obtain rfl | rfl := h.known c st hst
    · simp [hst]
    · simp [hst]
  rw [hactive]
  exact List.filter_append_perm _ _

/-- A range of the sorted set is of the list. -/
theorem mem_idsByStart_of_mem_pageIds {offset limit : ℤ} {c : String}
    (h : c ∈ t.pageIds offset limit true) : c ∈ t.idsByStart true :=
  List.mem_of_mem_take (List.mem_of_mem_drop h)

/-- A row is about its conversation, which was online. -/
theorem exists_of_mem_chatsOfIds (h : Listing t) (h' : Listing t') {offset limit : ℤ}
    {row : Dict String} (hrow : row ∈ t'.chatsOfIds (t.pageIds offset limit true)) :
    ∃ c ∈ t.chats, row = t'.row c ∧ row.lookup "conversation_id" = some c := by
  obtain ⟨c, hc, rfl⟩ := List.mem_map.mp hrow
  have hlisted : c ∈ t.idsByStart true :=
    mem_idsByStart_of_mem_pageIds (List.mem_of_mem_filter hc)
  exact ⟨c, (h.members c).mpr (mem_idsByStart.mp hlisted), rfl, lookup_row h' c⟩

end Rows

section Responses

variable {Token : Type} {C : Crypto Token} {invalid : Token → String} {now : ℤ}
  {token : Authorization Token} {offset limit : ℤ} {status : Option String}
  {t t' t'' : Tracker} {view : OnlineChats}

/-- Nobody is shown anything without a token. -/
theorem exists_of_adminOnlineChats
    (h : adminOnlineChats C invalid now token offset limit status t t' t'' = .ok view) :
    (∃ claims, requireAuth C invalid now token = .ok claims) ∧
      view.total_online = t''.getOnlineCount ∧
      view.chats = match truthy status with
        | some status => getOnlineChatsByStatus t t' status
        | none => t'.chatsOfIds (t.pageIds offset limit true) := by
  rw [adminOnlineChats] at h
  cases hauth : requireAuth C invalid now token with
  | error e =>
    rw [hauth] at h
    cases h
  | ok claims =>
    rw [hauth] at h
    obtain rfl := Except.ok.inj h
    exact ⟨⟨claims, rfl⟩, rfl, rfl⟩

theorem Statuses.reports (h' : Statuses t') (hlisting : Listing t) (hlisting' : Listing t')
    (hlisting'' : Listing t'')
    (hview : adminOnlineChats C invalid now token offset limit status t t' t'' = .ok view) :
    Reports t t' t'' offset limit status view := by
  obtain ⟨-, htotal, hchats⟩ := exists_of_adminOnlineChats hview
  have hfiltered (st : String) (hst : truthy status = some st) : view.chats =
      (((t.idsByStart true).take 10000).filter fun c =>
        t'.shownStatus c = some st).map t'.row := by
    rw [hchats, hst]
    exact getOnlineChatsByStatus_eq t t' st
  constructor
  · exact htotal.trans (hlisting''.length_idsByStart true).symm
  · intro row hrow
    rw [hchats] at hrow
    split at hrow
    · exact exists_of_mem_chatsOfIds hlisting hlisting' (List.mem_of_mem_filter hrow)
    · exact exists_of_mem_chatsOfIds hlisting hlisting' hrow
  · rintro hnone o l rfl rfl hbounds
    rw [hchats, hnone, ← pageIds_eq t hbounds]
    rfl
  · exact hfiltered
  · intro st hst hqueued hactive
    rw [hfiltered st hst, List.map_eq_nil_iff, List.filter_eq_nil_iff]
    intro c _ hc
    exact (h'.known c st (of_decide_eq_true hc)).elim hqueued hactive

/-- **The online chats**, when the three calls are made at any three times of a run, one after the
other. -/
theorem adminOnlineChats_of_run {s s' s'' : Calls} {before between after : List CallStep}
    (h : Transition.run Calls.step .empty before = some s)
    (h' : Transition.run Calls.step s between = some s')
    (h'' : Transition.run Calls.step s' after = some s'')
    (hview : adminOnlineChats C invalid now token offset limit status s.tracker s'.tracker
      s''.tracker = .ok view) :
    (∃ claims, requireAuth C invalid now token = .ok claims) ∧
      Reports s.tracker s'.tracker s''.tracker offset limit status view ∧
      Partitioned s.tracker := by
  have hkept (u : Calls) (a : CallStep) (u' : Calls)
      (hu : Listing u.tracker ∧ Statuses u.tracker) (ha : u.step a = some u') :
      Listing u'.tracker ∧ Statuses u'.tracker := ⟨hu.1.step ha, hu.2.step ha⟩
  have hs : Listing s.tracker ∧ Statuses s.tracker :=
    (Transition.always_of_invariant hkept ⟨Listing.empty, Statuses.empty⟩ before).run h
  have hs' : Listing s'.tracker ∧ Statuses s'.tracker :=
    (Transition.always_of_invariant hkept hs between).run h'
  have hs'' : Listing s''.tracker ∧ Statuses s''.tracker :=
    (Transition.always_of_invariant hkept hs' after).run h''
  exact ⟨(exists_of_adminOnlineChats hview).1, hs'.2.reports hs.1 hs'.1 hs''.1 hview,
    hs.2.partitioned hs.1⟩

/-- Two chats start. -/
def twoChats : List CallStep :=
  [.chatOnline "conv-1" "user-1" "gateway-1" "bot-1" 0,
    .chatOnline "conv-2" "user-2" "gateway-1" "bot-1" 0, .chatAssigned "conv-1" "agent-1"]

/-- One of them ends. -/
def secondEnds : List CallStep := [.chatOfflineRead 0 "conv-2", .chatOfflineExec 0]

/-- The chat that ends after the page has been read is not shown, and not counted. -/
theorem adminOnlineChats_of_run_secondEnds : ∃ s s' view,
    Transition.run Calls.step .empty twoChats = some s ∧
      Transition.run Calls.step s secondEnds = some s' ∧
        adminOnlineChats plainCrypto (fun _ => "Invalid token") 0 (.bearer sampleClaims) 0 50 none
            s.tracker s'.tracker s'.tracker = .ok view ∧
          view.chats.length = 1 ∧
          (∃ claims, requireAuth plainCrypto (fun _ => "Invalid token") 0
            (.bearer sampleClaims) = .ok claims) ∧
          Reports s.tracker s'.tracker s'.tracker 0 50 none view ∧ Partitioned s.tracker := by
  have h : Transition.run Calls.step .empty twoChats =
      some ((Transition.run Calls.step .empty twoChats).get rfl) := (Option.some_get _).symm
  have h' : Transition.run Calls.step ((Transition.run Calls.step .empty twoChats).get rfl)
      secondEnds = some ((Transition.run Calls.step ((Transition.run Calls.step .empty
        twoChats).get rfl) secondEnds).get rfl) := (Option.some_get _).symm
  refine ⟨_, _, _, h, h', rfl, rfl, ?_⟩
  exact adminOnlineChats_of_run h h' (Transition.run_nil _) rfl

end Responses

end Tracker

end TitanChat
