import TitanChat.TrackerCalls

/-!
# Pages of the online list

`get_all_online_chats` reads a page of `online:chats:by_time`. It is called with an offset and a
limit, and Redis takes the first and the last index, where `-1` is the last element: the stop index
`offset + limit - 1` is a position of the page unless the page is empty and at the front. With
`offset = 0` and `limit = 0` it is `-1`, and the page is the whole list.

Which of the rows of a page have a hash plays no part, since a conversation that is online has one.

## Main definitions

* `idsByStart`: the online chats, by start time
* `ExactPage`: what a page should be
* `Chronological`, `Paginated`: what is said of the list and of its pages

## Main results

* `exactPage_iff`: a page is exact unless it is empty, at the front of a list that is not
* `paginated_always`: in every state of every run
-/

namespace TitanChat

namespace Tracker

/-- The online chats, by start time and then by conversation. -/
def idsByStart (t : Tracker) (newest_first : Bool) : List String :=
  if newest_first then (t.byTime.ranked.map Prod.fst).reverse else t.byTime.ranked.map Prod.fst

/-- **The property of a page.** The rows at positions `offset` to `offset + limit - 1`. -/
structure ExactPage (t : Tracker) (newest_first : Bool) (offset limit : ℕ) : Prop where
  atMost : (t.getAllOnlineChats offset limit newest_first).length ≤ limit
  rows : t.getAllOnlineChats offset limit newest_first =
    (((t.idsByStart newest_first).drop offset).take limit).map t.row

/-- Every online chat once, in the order of the start times. -/
structure Chronological (t : Tracker) (newest_first : Bool) (ids : List String) : Prop where
  once : ids.Nodup
  online : ∀ c, c ∈ ids ↔ c ∈ t.chats
  ordered : ids.Pairwise fun c d => ∀ x y, t.byTime.lookup c = some x →
    t.byTime.lookup d = some y → if newest_first then y ≤ x else x ≤ y

/-- **The pages of a list.** -/
structure Paginated (t : Tracker) (newest_first : Bool) : Prop where
  chronological : t.Chronological newest_first (t.idsByStart newest_first)
  /-- A row is about its conversation. -/
  named : ∀ c ∈ t.chats, (t.row c).lookup "conversation_id" = some c
  page : ∀ offset limit : ℕ, t.ExactPage newest_first offset limit ↔
    ¬(offset = 0 ∧ limit = 0 ∧ t.chats ≠ ∅)
  /-- The pages of a size that is not `0` add up, from as many as are needed. -/
  pages : ∀ k n : ℕ, 0 < k → t.chats.card ≤ n * k →
    ((List.range n).flatMap fun i => t.getAllOnlineChats ↑(i * k) k newest_first) =
      (t.idsByStart newest_first).map t.row

/-! ### The list -/

variable {t : Tracker}

theorem nodup_idsByStart (t : Tracker) (newest_first : Bool) :
    (t.idsByStart newest_first).Nodup := by
  rw [idsByStart]
  split
  · exact List.nodup_reverse.mpr t.byTime.nodup_ranked
  · exact t.byTime.nodup_ranked

theorem mem_idsByStart {newest_first : Bool} {c : String} :
    c ∈ t.idsByStart newest_first ↔ (t.byTime.lookup c).isSome := by
  rw [idsByStart]
  split
  · rw [List.mem_reverse, SortedSet.mem_map_ranked]
  · rw [SortedSet.mem_map_ranked]

/-- The members of the sorted set, from the earliest start. -/
theorem pairwise_start (t : Tracker) : (t.byTime.ranked.map Prod.fst).Pairwise fun c d =>
    ∀ x y, t.byTime.lookup c = some x → t.byTime.lookup d = some y → x ≤ y := by
  rw [List.pairwise_map]
  refine t.byTime.pairwise_ranked.imp_of_mem fun {p q} hp hq hle x y hx hy => ?_
  obtain rfl : p.2 = x := Option.some.inj ((SortedSet.mem_ranked.mp hp).symm.trans hx)
  obtain rfl : q.2 = y := Option.some.inj ((SortedSet.mem_ranked.mp hq).symm.trans hy)
  exact hle.elim le_of_lt fun h => h.1.le

theorem Listing.chronological (h : Listing t) (newest_first : Bool) :
    t.Chronological newest_first (t.idsByStart newest_first) where
  once := t.nodup_idsByStart newest_first
  online c := by rw [mem_idsByStart, h.members]
  ordered := by
    cases newest_first with
    | false => exact t.pairwise_start
    | true =>
      rw [idsByStart, if_pos rfl, List.pairwise_reverse]
      exact t.pairwise_start.imp fun hle x y hx hy => hle y x hy hx

/-! ### A page -/

/-- Both orders read a range of the list. -/
theorem getAllOnlineChats_eq (t : Tracker) (offset limit : ℤ) (newest_first : Bool) :
    t.getAllOnlineChats offset limit newest_first =
      ((SortedSet.slice (t.idsByStart newest_first) offset (offset + limit - 1)).filter
        fun cid => !(t.chat cid).entries.isEmpty).map t.row := by
  cases newest_first <;> rfl

/-- What is online has a hash, and so no row is left out. -/
theorem Listing.filter_eq (h : Listing t) {newest_first : Bool} {ids : List String}
    (hsub : ∀ c ∈ ids, c ∈ t.idsByStart newest_first) :
    (ids.filter fun cid => !(t.chat cid).entries.isEmpty) = ids := by
  refine List.filter_eq_self.mpr fun c hc => ?_
  have hshown := h.shown c ((h.members c).mpr (mem_idsByStart.mp (hsub c hc)))
  simpa [← isEmpty_entries_iff] using hshown

/-- A page whose bounds are not both `0`. -/
theorem Listing.page_eq (h : Listing t) (newest_first : Bool) {offset limit : ℕ}
    (hbounds : ¬(offset = 0 ∧ limit = 0)) : t.getAllOnlineChats offset limit newest_first =
      (((t.idsByStart newest_first).drop offset).take limit).map t.row := by
  rw [getAllOnlineChats_eq, SortedSet.slice_window _ hbounds]
  rw [h.filter_eq fun c hc => List.mem_of_mem_drop (List.mem_of_mem_take hc)]

/-- The page whose bounds are both `0`. -/
theorem Listing.page_zero (h : Listing t) (newest_first : Bool) :
    t.getAllOnlineChats (0 : ℕ) (0 : ℕ) newest_first = (t.idsByStart newest_first).map t.row := by
  rw [getAllOnlineChats_eq, Int.natCast_zero, SortedSet.slice_zero_zero,
    h.filter_eq fun c hc => hc]

theorem Listing.idsByStart_eq_nil_iff (h : Listing t) (newest_first : Bool) :
    t.idsByStart newest_first = [] ↔ t.chats = ∅ := by
  rw [List.eq_nil_iff_forall_not_mem, Finset.eq_empty_iff_forall_notMem]
  exact forall_congr' fun c => not_congr ((h.chronological newest_first).online c)

/-- **One page.** -/
theorem exactPage_iff (h : Listing t) (newest_first : Bool) (offset limit : ℕ) :
    t.ExactPage newest_first offset limit ↔ ¬(offset = 0 ∧ limit = 0 ∧ t.chats ≠ ∅) := by
  by_cases hbounds : offset = 0 ∧ limit = 0
  · obtain ⟨rfl, rfl⟩ := hbounds
    have hzero := h.page_zero newest_first
    constructor
    · rintro ⟨-, hrows⟩ ⟨-, -, hne⟩
      rw [hzero, List.take_zero, List.map_nil, List.map_eq_nil_iff] at hrows
      exact hne ((h.idsByStart_eq_nil_iff newest_first).mp hrows)
    · intro hempty
      have hnil : t.idsByStart newest_first = [] :=
        (h.idsByStart_eq_nil_iff newest_first).mpr (by simpa using hempty)
      have hpage : t.getAllOnlineChats (0 : ℕ) (0 : ℕ) newest_first = [] := by
        rw [hzero, hnil, List.map_nil]
      exact ⟨by rw [hpage, List.length_nil], by rw [hpage, hnil, List.drop_nil, List.take_nil,
        List.map_nil]⟩
  · have hpage := h.page_eq newest_first hbounds
    refine iff_of_true ⟨?_, hpage⟩ fun hall => hbounds ⟨hall.1, hall.2.1⟩
    rw [hpage, List.length_map]
    exact List.length_take_le ..

/-! ### All pages -/

theorem Listing.length_idsByStart (h : Listing t) (newest_first : Bool) :
    (t.idsByStart newest_first).length = t.chats.card := by
  have hset : (t.idsByStart newest_first).toFinset = t.chats := by
    ext c
    rw [List.mem_toFinset, (h.chronological newest_first).online]
  rw [← hset, List.toFinset_card_of_nodup (t.nodup_idsByStart newest_first)]

theorem Listing.paginated (h : Listing t) (newest_first : Bool) : t.Paginated newest_first where
  chronological := h.chronological newest_first
  named c _ := lookup_row h c
  page := exactPage_iff h newest_first
  pages k n hk hn := by
    have hpage (i : ℕ) : t.getAllOnlineChats ↑(i * k) k newest_first =
        (((t.idsByStart newest_first).drop (i * k)).take k).map t.row :=
      h.page_eq newest_first fun hboth => hk.ne' hboth.2
    calc ((List.range n).flatMap fun i => t.getAllOnlineChats ↑(i * k) k newest_first)
        = ((List.range n).flatMap fun i =>
            ((t.idsByStart newest_first).drop (i * k)).take k).map t.row := by
          rw [List.map_flatMap]
          exact List.flatMap_congr fun i _ => hpage i
      _ = ((t.idsByStart newest_first).take (n * k)).map t.row := by
          rw [SortedSet.flatMap_windows]
      _ = (t.idsByStart newest_first).map t.row := by
          rw [List.take_of_length_le (by rwa [h.length_idsByStart])]

/-- **Pagination**, in every state of every run and in both orders. -/
theorem paginated_always (schedule : List CallStep) :
    Transition.Always Calls.step (fun s => ∀ newest_first, s.tracker.Paginated newest_first)
      .empty schedule :=
  (Transition.always_of_invariant (fun _ _ _ h hs => Listing.step h hs) Listing.empty
    schedule).imp fun _ h newest_first => Listing.paginated h newest_first

/-- **An empty page at the front.** With one chat online, `limit = 0` returns it. -/
theorem not_exactPage : ¬ ∀ schedule : List CallStep, Transition.Always Calls.step
    (fun s => ∀ newest_first offset limit, s.tracker.ExactPage newest_first offset limit)
    .empty schedule := by
  intro h
  have hlast := (h [.chatOnline "conv-1" "user-1" "gateway-1" "bot-1" 0]).run rfl
  have hrows := (hlast true 0 0).atMost
  exact absurd hrows (by decide)

end Tracker

end TitanChat
