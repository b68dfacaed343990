import TitanChat.Internal.Ranking
import TitanChat.ApiRoutes
import TitanChat.OnlinePages

/-!
# The scope of the dashboard

`dashboard_stats` and `dashboard_active_chats` ask the tracker for the newest 10000 online chats of
all tenants, and keep those of the admin's bots. What an admin is shown therefore depends on the
others exactly when one of its own chats is not among the 10000: the number is then too small, and
a chat that another tenant starts can make it smaller.

Two trackers are compared that agree on the admin's chats and on nothing else.

## Main definitions

* `Owned`, `ownCount`: the admin's chats and their number
* `SameScope`: two trackers that agree on them
* `ScopedView`: what the two dashboards should show
* `Fits`: the condition, on one tracker

## Main results

* `length_adminChats_eq_iff`: the number is right exactly under the condition
* `scopedView_iff`: the views agree exactly if it holds of both trackers
-/

namespace TitanChat

namespace Tracker

/-- The chat belongs to one of the bots. -/
def ofBots (t : Tracker) (bot_ids : List String) (c : String) : Bool :=
  ((t.chat c).lookup "bot_id").any (· ∈ bot_ids)

/-- It is online since `x`. -/
structure Owned (t : Tracker) (bot_ids : List String) (c : String) (x : ℤ) : Prop where
  online : t.byTime.lookup c = some x
  bot : t.ofBots bot_ids c = true

/-- How many chats of the bots are online. -/
def ownCount (t : Tracker) (bot_ids : List String) : ℕ :=
  t.byTime.entries.countP fun e => t.ofBots bot_ids e.1

/-- How many chats of all bots have come online later. Of two that have come at the same time, the
one with the greater name counts as the later. -/
def later (t : Tracker) (c : String) (x : ℤ) : ℕ :=
  t.byTime.entries.countP fun e => x < e.2 ∨ (x = e.2 ∧ c < e.1)

/-- **The condition.** -/
def Fits (t : Tracker) (bot_ids : List String) : Prop :=
  ∀ c x, t.Owned bot_ids c x → t.later c x < 10000

/-- The same chats of the bots, with the same start times and hashes. -/
structure SameScope (bot_ids : List String) (t t' : Tracker) : Prop where
  own : ∀ c x, t.Owned bot_ids c x ↔ t'.Owned bot_ids c x
  chat : ∀ c x, t.Owned bot_ids c x → t.chat c = t'.chat c

/-! ### The newest chats -/

/-- The online chats, from the newest. -/
def newest (t : Tracker) : List (String × ℤ) := t.byTime.ranked.reverse

/-- Those of the bots among the newest 10000. -/
def shown (t : Tracker) (bot_ids : List String) : List (String × ℤ) :=
  (t.newest.take 10000).filter fun p => t.ofBots bot_ids p.1

/-- All of the bots. -/
def own (t : Tracker) (bot_ids : List String) : List (String × ℤ) :=
  t.newest.filter fun p => t.ofBots bot_ids p.1

variable {t t' : Tracker} {bot_ids : List String}

theorem mem_newest {c : String} {x : ℤ} : (c, x) ∈ t.newest ↔ t.byTime.lookup c = some x := by
  rw [newest, List.mem_reverse, SortedSet.mem_ranked]

theorem mem_own {c : String} {x : ℤ} : (c, x) ∈ t.own bot_ids ↔ t.Owned bot_ids c x := by
  rw [own, List.mem_filter, mem_newest]
  exact ⟨fun h => ⟨h.1, h.2⟩, fun h => ⟨h.online, h.bot⟩⟩

theorem pairwise_newest (t : Tracker) :
    t.newest.Pairwise fun p q => SortedSet.rankLE q p :=
  List.pairwise_reverse.mpr t.byTime.pairwise_ranked

theorem nodup_newest (t : Tracker) : t.newest.Nodup :=
  List.nodup_reverse.mpr (List.Nodup.of_map _ t.byTime.nodup_ranked)

theorem perm_newest (t : Tracker) : t.newest.Perm (t.byTime.entries.map fun e => (e.1, e.2)) :=
  (List.reverse_perm _).trans (List.perm_insertionSort ..)

/-- Where a chat stands among the newest. -/
def newestPlace (p : String × ℤ) : (ℤ ×ₗ String)ᵒᵈ := OrderDual.toDual (toLex (p.2, p.1))

theorem newestPlace_lt_iff {p q : String × ℤ} :
    newestPlace q < newestPlace p ↔ p.2 < q.2 ∨ (p.2 = q.2 ∧ p.1 < q.1) := by
  rw [newestPlace, newestPlace, OrderDual.toDual_lt_toDual]
  exact Prod.Lex.toLex_lt_toLex

theorem pairwise_newestPlace (t : Tracker) :
    t.newest.Pairwise fun p q => newestPlace p < newestPlace q := by
  refine (t.pairwise_newest.and t.nodup_newest).imp fun {p q} hpq => ?_
  rw [newestPlace_lt_iff]
  obtain ⟨hlt | ⟨heq, hle⟩, hne⟩ := hpq
  · exact Or.inl hlt
  · refine Or.inr ⟨heq, lt_of_le_of_ne hle fun hname => hne ?_⟩
    exact (Prod.ext hname heq).symm

theorem countP_newest (t : Tracker) (c : String) (x : ℤ) :
    t.newest.countP (fun q => newestPlace q < newestPlace (c, x)) = t.later c x := by
  rw [t.perm_newest.countP_eq, List.countP_map, later]
  refine List.countP_congr fun e _ => ?_
  simp [newestPlace_lt_iff]

/-- A chat is among the newest 10000 if fewer have come later. -/
theorem mem_take_newest_iff {c : String} {x : ℤ} :
    (c, x) ∈ t.newest.take 10000 ↔ t.byTime.lookup c = some x ∧ t.later c x < 10000 := by
  rw [Ranking.mem_take_iff_of_pairwise t.pairwise_newestPlace, mem_newest, countP_newest]

theorem own_eq_append (t : Tracker) (bot_ids : List String) :
    t.own bot_ids =
      t.shown bot_ids ++ (t.newest.drop 10000).filter fun p => t.ofBots bot_ids p.1 := by
  rw [shown, ← List.filter_append, List.take_append_drop, own]

/-- **None is beyond the cap.** -/
theorem fits_iff : t.Fits bot_ids ↔ t.shown bot_ids = t.own bot_ids := by
  constructor
  · intro h
    have hbeyond : ((t.newest.drop 10000).filter fun p => t.ofBots bot_ids p.1) = [] := by
      rw [List.filter_eq_nil_iff]
      rintro ⟨c, x⟩ hdrop hbot
      have hlookup := mem_newest.mp (List.mem_of_mem_drop hdrop)
      have htake := mem_take_newest_iff.mpr ⟨hlookup, h c x ⟨hlookup, hbot⟩⟩
      have hnodup := t.nodup_newest
      rw [← List.take_append_drop 10000 t.newest] at hnodup
      exact List.disjoint_of_nodup_append hnodup htake hdrop
    rw [own_eq_append, hbeyond, List.append_nil]
  · intro h c x hown
    have hmem : (c, x) ∈ t.shown bot_ids := h ▸ mem_own.mpr hown
    exact (mem_take_newest_iff.mp (List.mem_filter.mp hmem).1).2

theorem length_own (t : Tracker) (bot_ids : List String) :
    (t.own bot_ids).length = t.ownCount bot_ids := by
  rw [own, ← List.countP_eq_length_filter, t.perm_newest.countP_eq, List.countP_map]
  rfl

/-- Counting those that are shown is enough. -/
theorem length_shown_eq_iff :
    (t.shown bot_ids).length = t.ownCount bot_ids ↔ t.Fits bot_ids := by
  rw [fits_iff, ← length_own]
  refine ⟨fun hlength => ?_, fun h => by rw [h]⟩
  rw [own_eq_append] at hlength ⊢
  rw [List.length_append, Nat.left_eq_add, List.length_eq_zero_iff] at hlength
  rw [hlength, List.append_nil]

/-- The order of one's own chats is one's own. -/
theorem SameScope.own_eq (h : SameScope bot_ids t t') : t.own bot_ids = t'.own bot_ids := by
  have hperm : (t.own bot_ids).Perm (t'.own bot_ids) := by
    refine (List.perm_ext_iff_of_nodup (t.nodup_newest.filter _) (t'.nodup_newest.filter _)).mpr ?_
    rintro ⟨c, x⟩
    exact mem_own.trans ((h.own c x).trans mem_own.symm)
  refine hperm.eq_of_pairwise (fun p q _ _ hpq hqp => ?_) (t.pairwise_newest.filter _)
    (t'.pairwise_newest.filter _)
  exact Std.Antisymm.antisymm p q hqp hpq

/-! ### The rows -/

/-- The row of a chat has the bot of its hash. -/
theorem lookup_row_bot_id (t : Tracker) (c : String) :
    (t.row c).lookup "bot_id" = (t.chat c).lookup "bot_id" := by
  rw [row]
  by_cases hmem : "bot_id" ∈ t.chat c
  · exact AList.lookup_union_left hmem
  · rw [AList.lookup_union_right hmem, AList.lookup_eq_none.mpr hmem]
    rfl

theorem not_isEmpty_of_ofBots {c : String} (h : t.ofBots bot_ids c = true) :
    (!(t.chat c).entries.isEmpty) = true := by
  rw [Bool.not_eq_true', Bool.eq_false_iff]
  intro hempty
  rw [ofBots, isEmpty_entries_iff.mp hempty] at h
  exact absurd h (by simp)

theorem getAllOnlineChats_newest (t : Tracker) : t.getAllOnlineChats 0 10000 true =
    (((t.newest.take 10000).map Prod.fst).filter fun cid =>
      !(t.chat cid).entries.isEmpty).map t.row := by
  have hids : t.idsByStart true = t.newest.map Prod.fst := by
    rw [idsByStart, if_pos rfl, newest, List.map_reverse]
  have hslice : SortedSet.slice (t.idsByStart true) 0 (0 + 10000 - 1) =
      ((t.idsByStart true).drop 0).take 10000 :=
    SortedSet.slice_window (t.idsByStart true) (by simp)
  rw [getAllOnlineChats_eq, hslice, List.drop_zero, hids, List.map_take]

end Tracker

open Tracker

/-- What the two dashboards have in common. -/
theorem adminChats_eq (E : Backend) (admin : Admin) (db : Accounts) :
    adminChats E admin db =
      (E.tracker.shown (getAdminBotIds db.botList admin.id.str)).map
        fun p => E.tracker.row p.1 := by
  let ids := getAdminBotIds db.botList admin.id.str
  have htest (cid : String) : ((E.tracker.row cid).lookup "bot_id").any (· ∈ ids) =
      E.tracker.ofBots ids cid := by
    rw [lookup_row_bot_id, ofBots]
  have hboth (cid : String) : (E.tracker.ofBots ids cid && !(E.tracker.chat cid).entries.isEmpty) =
      E.tracker.ofBots ids cid := by
    cases hown : E.tracker.ofBots ids cid with
    | false => rfl
    | true => exact not_isEmpty_of_ofBots hown
  rw [adminChats, getAllOnlineChats_newest, List.filter_map, List.filter_filter]
  simp only [Function.comp_def]
  simp only [ids] at htest hboth
  simp only [htest, hboth]
  rw [List.filter_map, List.map_map]
  rfl

/-- **The property.** -/
structure ScopedView (E E' : Backend) (admin : Admin) (db : Accounts) : Prop where
  /-- `dashboard_stats` shows the same number of chats. -/
  stats : (dashboardStats E admin db).online_chats = (dashboardStats E' admin db).online_chats
  /-- `dashboard_active_chats` shows the same total and the same rows. -/
  activeChats : ∀ offset limit, dashboardActiveChats E admin offset limit db =
    dashboardActiveChats E' admin offset limit db
  /-- The number is that of the admin's chats. -/
  count : (dashboardStats E admin db).online_chats =
    E.tracker.ownCount (getAdminBotIds db.botList admin.id.str)

/-- **The number is right** exactly if none of the admin's chats is beyond the cap. -/
theorem length_adminChats_eq_iff (E : Backend) (admin : Admin) (db : Accounts) :
    (dashboardStats E admin db).online_chats =
        E.tracker.ownCount (getAdminBotIds db.botList admin.id.str) ↔
      E.tracker.Fits (getAdminBotIds db.botList admin.id.str) := by
  rw [← length_shown_eq_iff, dashboardStats, adminChats_eq, List.length_map]

/-- Trackers that agree on one's own chats have as many of them. -/
theorem Tracker.SameScope.ownCount_eq {bot_ids : List String} {t t' : Tracker}
    (h : SameScope bot_ids t t') : t.ownCount bot_ids = t'.ownCount bot_ids := by
  rw [← length_own, ← length_own, h.own_eq]

/-- **Two trackers that agree on one's own chats** are shown alike, and as they are, exactly if none
of these chats is beyond the cap in either. -/
theorem scopedView_iff (E E' : Backend) (admin : Admin) (db : Accounts)
    (h : SameScope (getAdminBotIds db.botList admin.id.str) E.tracker E'.tracker) :
    ScopedView E E' admin db ↔
      E.tracker.Fits (getAdminBotIds db.botList admin.id.str) ∧
        E'.tracker.Fits (getAdminBotIds db.botList admin.id.str) := by
  rw [← length_adminChats_eq_iff, ← length_adminChats_eq_iff, ← h.ownCount_eq]
  constructor
  · exact fun hview => ⟨hview.count, hview.stats.symm.trans hview.count⟩
  · rintro ⟨hcount, hcount'⟩
    have hfits := (length_adminChats_eq_iff E admin db).mp hcount
    have hfits' := (length_adminChats_eq_iff E' admin db).mp (hcount'.trans h.ownCount_eq)
    have hrows : adminChats E admin db = adminChats E' admin db := by
      rw [adminChats_eq, adminChats_eq, fits_iff.mp hfits, fits_iff.mp hfits', ← h.own_eq]
      refine List.map_congr_left fun p hp => ?_
      rw [row, row, h.chat p.1 p.2 (mem_own.mp hp)]
    refine ⟨hcount.trans hcount'.symm, fun offset limit => ?_, hcount⟩
    rw [dashboardActiveChats, dashboardActiveChats, hrows]

/-! ### Other tenants -/

namespace Tracker

variable {t : Tracker} {bot_ids : List String} {c d user_id server_id bot_id : String} {x now : ℤ}

/-- A chat of another bot. -/
theorem owned_chatOnline_iff (hbot : bot_id ∉ bot_ids) :
    (t.chatOnline d user_id server_id bot_id now).Owned bot_ids c x ↔
      c ≠ d ∧ t.Owned bot_ids c x := by
  by_cases hc : c = d
  · subst hc
    refine iff_of_false (fun h => ?_) fun h => h.1 rfl
    have hown := h.bot
    rw [ofBots] at hown
    simp [chatOnline, hset, AList.lookup_insert_ne, hbot] at hown
  · have hchat : (t.chatOnline d user_id server_id bot_id now).chat c = t.chat c :=
      Function.update_of_ne hc _ _
    have htime : (t.chatOnline d user_id server_id bot_id now).byTime.lookup c =
        t.byTime.lookup c := AList.lookup_insert_ne hc
    constructor
    · rintro ⟨honline, hown⟩
      refine ⟨hc, htime ▸ honline, ?_⟩
      rwa [ofBots, hchat, ← ofBots] at hown
    · rintro ⟨-, honline, hown⟩
      refine ⟨htime.trans honline, ?_⟩
      rwa [ofBots, hchat, ← ofBots]

/-- Each chat that comes online pushes the others back. -/
theorem later_chatOnline (hnew : d ∉ t.byTime) (hx : x < now) :
    (t.chatOnline d user_id server_id bot_id now).later c x = t.later c x + 1 := by
  rw [later, chatOnline, AList.entries_insert_of_notMem hnew, List.countP_cons_of_pos]
  · rfl
  · exact decide_eq_true (Or.inl hx)

end Tracker

/-- The name of a chat of another tenant. -/
def otherChat (n : ℕ) : String := String.ofList ('n' :: List.replicate n 'a')

/-- A chat of the sample bot, and `n` later ones of another. -/
def crowd : ℕ → Tracker
  | 0 => Tracker.empty.chatOnline "conv-1" "user-1" "gateway-1" sampleBotId.str 0
  | n + 1 => (crowd n).chatOnline (otherChat n) "user-2" "gateway-1" "" (n + 1)

theorem mem_byTime_crowd {n : ℕ} {c : String} :
    c ∈ (crowd n).byTime ↔ c = "conv-1" ∨ ∃ i < n, c = otherChat i := by
  induction n with
  | zero =>
    rw [crowd, Tracker.chatOnline, AList.mem_insert]
    simp [Tracker.empty]
  | succ n ih =>
    rw [crowd, Tracker.chatOnline, AList.mem_insert, ih]
    constructor
    · rintro (rfl | rfl | ⟨i, hi, rfl⟩)
      · exact Or.inr ⟨n, n.lt_succ_self, rfl⟩
      · exact Or.inl rfl
      · exact Or.inr ⟨i, hi.trans n.lt_succ_self, rfl⟩
    · rintro (rfl | ⟨i, hi, rfl⟩)
      · exact Or.inr (Or.inl rfl)
      · rcases Nat.lt_succ_iff_lt_or_eq.mp hi with hi | rfl
        · exact Or.inr (Or.inr ⟨i, hi, rfl⟩)
        · exact Or.inl rfl

theorem otherChat_notMem (n : ℕ) : otherChat n ∉ (crowd n).byTime := by
  rw [mem_byTime_crowd]
  rintro (h | ⟨i, hi, h⟩)
  · have hlist := congrArg String.toList h
    simp [otherChat] at hlist
  · have hlength := congrArg (List.length ∘ String.toList) h
    simp [otherChat] at hlength
    omega

theorem owned_crowd_iff {n : ℕ} {c : String} {x : ℤ} :
    (crowd n).Owned [sampleBotId.str] c x ↔ c = "conv-1" ∧ x = 0 := by
  induction n with
  | zero =>
    constructor
    · rintro ⟨honline, -⟩
      have hc := mem_byTime_crowd.mp (AList.lookup_isSome.mp (Option.isSome_of_mem honline))
      obtain rfl : c = "conv-1" := by simpa using hc
      exact ⟨rfl, (Option.some.inj honline).symm⟩
    · rintro ⟨rfl, rfl⟩
      exact ⟨rfl, by decide⟩
  | succ n ih =>
    rw [crowd, owned_chatOnline_iff (by decide), ih, and_iff_right_iff_imp]
    rintro ⟨rfl, -⟩ h
    exact otherChat_notMem n (mem_byTime_crowd.mpr (Or.inl h.symm))

theorem later_crowd (n : ℕ) : (crowd n).later "conv-1" 0 = n := by
  induction n with
  | zero => rfl
  | succ n ih => rw [crowd, later_chatOnline (otherChat_notMem n) (by omega), ih]

theorem fits_crowd_iff (n : ℕ) : (crowd n).Fits [sampleBotId.str] ↔ n < 10000 := by
  constructor
  · intro h
    have hlater := h _ _ (owned_crowd_iff.mpr ⟨rfl, rfl⟩)
    rwa [later_crowd] at hlater
  · intro h c x hown
    obtain ⟨rfl, rfl⟩ := owned_crowd_iff.mp hown
    rwa [later_crowd]

theorem sameScope_crowd (m n : ℕ) : SameScope [sampleBotId.str] (crowd m) (crowd n) where
  own c x := owned_crowd_iff.trans owned_crowd_iff.symm
  chat c x hown := by
    obtain ⟨rfl, rfl⟩ := owned_crowd_iff.mp hown
    have hsame (k : ℕ) : (crowd k).chat "conv-1" = (crowd 0).chat "conv-1" := by
      induction k with
      | zero => rfl
      | succ k ih =>
        refine (Function.update_of_ne (fun h => ?_) _ _).trans ih
        exact otherChat_notMem k (mem_byTime_crowd.mpr (Or.inl h.symm))
    rw [hsame m, hsame n]

/-- An admin with one bot. -/
def oneBot : Accounts where
  admins := ∅
  agents := ∅
  bots := AList.singleton sampleBotId ⟨sampleBotId, sampleAdmin.id, "bot", "key", ∅, true, 0⟩

/-- What the routes read while `n` chats of other tenants are online. -/
def crowdBackend (n : ℕ) : Backend where
  cassandra _ _ := none
  scan _ := []
  now := .noon
  tracker := crowd n
  agents_status := []

/-- One chat of another tenant makes no difference. -/
theorem scopedView_one : ScopedView (crowdBackend 1) (crowdBackend 0) sampleAdmin oneBot :=
  (scopedView_iff (crowdBackend 1) (crowdBackend 0) sampleAdmin oneBot
    (sameScope_crowd 1 0)).mpr
      ⟨(fits_crowd_iff 1).mpr (by decide), (fits_crowd_iff 0).mpr (by decide)⟩

/-- **Ten thousand do.** The admin's chat is the oldest, and is not shown. -/
theorem not_scopedView : ¬ ∀ (E E' : Backend) (admin : Admin) (db : Accounts),
    SameScope (getAdminBotIds db.botList admin.id.str) E.tracker E'.tracker →
      ScopedView E E' admin db := by
  intro h
  have hview := h (crowdBackend 10000) (crowdBackend 0) sampleAdmin oneBot (sameScope_crowd 10000 0)
  have hcount := (length_adminChats_eq_iff (crowdBackend 10000) sampleAdmin oneBot).mp hview.count
  exact absurd ((fits_crowd_iff 10000).mp hcount) (lt_irrefl 10000)

end TitanChat
