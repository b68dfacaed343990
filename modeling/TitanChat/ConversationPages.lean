import TitanChat.BotView
import TitanChat.Internal.Ranking

/-!
# The page of conversations

`list_conversations` reads the first `limit` rows of `conversations_by_bot` for each bot of the
admin, sorts them by `last_message_at` and returns the first `limit`. What is asked for are the
first `limit` conversations that have the status. There are three ways to miss them. The parameter
`status`, which is there to filter, is not used. A conversation has a row for each of its starts,
and can be listed for each of them. And the rows of a bot are truncated in the order of
`started_at`, so that of two conversations the one with the newer message may be cut off.

The last does not happen to rows of `chat_start`, because these have the same `started_at` and
`last_message_at`. Then each bot lists its newest first, and what is cut off is too old.

## Main definitions

* `latestFirst`, `Listed`: how Cassandra lists the partitions
* `Wanted`: a row of the bots that are asked for, with the status
* `RightPage`: the property
* `Unspoiled`: the condition on the rows

## Main results

* `page_eq`: the page in terms of the rows
* `rightPage_iff`: the exact statement
* `rightPage_iff_of_plain`, `rightPage_iff_of_run`: for rows of `chat_start`
-/

namespace TitanChat

open WideColumn Ranking

namespace ConversationPages

/-! ### What is asked for -/

/-- `CLUSTERING ORDER BY (started_at DESC, conversation_id ASC)`. -/
def latestFirst : List Cell → List Cell → Prop
  | [t, c], [t', c'] => t'.before t ∨ t = t' ∧ c.before c'
  | _, _ => False

/-- A query lists the rows of a bot in the order of the table. -/
def Listed (scan : (List Cell → Option Row) → List Row) (db : Database Table) : Prop :=
  ∀ b, Lists latestFirst (botPartition db b) (scan (botPartition db b))

/-- The bots of the admin, or the one that is given, if it is the admin's. -/
def Asked (bots : List Bot) (admin_id : String) (bot_id : Option String) (b : String) : Prop :=
  b ∈ getAdminBotIds bots admin_id ∧ ∀ b', truthy bot_id = some b' → b = b'

/-- The filter lets the conversation through; as for a bot, the empty text is no filter. -/
def HasStatus (status : Option String) (c : ConversationResponse) : Prop :=
  ∀ s, truthy status = some s → c.status = some (.text s)

section Wanted

variable (bots : List Bot) (admin_id : String) (db : Database Table) (status bot_id : Option String)

/-- A row of a bot that is asked for, with the status. -/
def Wanted (c : ConversationResponse) : Prop :=
  (∃ b, Asked bots admin_id bot_id b ∧
    ∃ rest row, botPartition db b rest = some row ∧ c = .ofRow row) ∧ HasStatus status c

/-- **The right page**: the first `limit` of the conversations that have the status, each once and
by its newest row, the newest first. -/
def RightPage (limit : ℕ) (page : List ConversationResponse) : Prop :=
  ∃ all, IsRanking ConversationResponse.sortKey ConversationResponse.conversation_id
    (Wanted bots admin_id db status bot_id) all ∧ page = all.take limit

end Wanted

/-! ### The rows -/

/-- The bots in the order of the loop. -/
def scope (bots : List Bot) (admin_id : String) (bot_id : Option String) : List String :=
  match truthy bot_id with
  | some b => if b ∈ getAdminBotIds bots admin_id then [b] else []
  | none => getAdminBotIds bots admin_id

/-- The rows of a bot. -/
def rowsOf (scan : (List Cell → Option Row) → List Row) (db : Database Table) (b : String) :
    List ConversationResponse :=
  (scan (botPartition db b)).map .ofRow

/-- The first `limit` rows of each bot. -/
def firstOfEach (rows : String → List ConversationResponse) (limit : ℕ) (bot_ids : List String) :
    List ConversationResponse :=
  bot_ids.flatMap fun b => (rows b).take limit

/-- One of the newest `limit`, where rows that are equally new are in the order of the loop. -/
abbrev Newest (rows : String → List ConversationResponse) (bot_ids : List String) (limit : ℕ)
    (p : ConversationResponse × ℕ) : Prop :=
  Leads ConversationResponse.sortKey (firstOfEach rows limit bot_ids) limit p

/-- **The condition.** Of the first `limit` rows of each bot, the newest have the status and are of
different conversations; and each further row with the status is no newer than `limit` of these, or
than one of the newest of its conversation. -/
structure Unspoiled (rows : String → List ConversationResponse) (bot_ids : List String)
    (status : Option String) (limit : ℕ) : Prop where
  filtered : ∀ p, Newest rows bot_ids limit p → HasStatus status p.1
  single : Single ConversationResponse.sortKey ConversationResponse.conversation_id
    (firstOfEach rows limit bot_ids) limit
  further : ∀ b ∈ bot_ids, ∀ c ∈ (rows b).drop limit, HasStatus status c →
    Covered ConversationResponse.sortKey ConversationResponse.conversation_id
      (firstOfEach rows limit bot_ids) limit c

section Page

variable {scan : (List Cell → Option Row) → List Row} {bots : List Bot} {admin_id : String}
  {db : Database Table} {status bot_id : Option String} {limit : ℕ}
  {page : List ConversationResponse}

theorem mem_scope {b : String} : b ∈ scope bots admin_id bot_id ↔ Asked bots admin_id bot_id b := by
  rw [scope, Asked]
  cases truthy bot_id with
  | none => simp
  | some b' =>
    by_cases hb' : b' ∈ getAdminBotIds bots admin_id
    · simp only [if_pos hb', List.mem_singleton, Option.some.injEq, forall_eq']
      exact ⟨fun h => ⟨h ▸ hb', h⟩, And.right⟩
    · simp only [if_neg hb', List.not_mem_nil, Option.some.injEq, forall_eq', false_iff, not_and]
      exact fun hb heq => hb' (heq ▸ hb)

theorem mem_rowsOf (hscan : Listed scan db) {b : String} {c : ConversationResponse} :
    c ∈ rowsOf scan db b ↔ ∃ rest row, botPartition db b rest = some row ∧ c = .ofRow row := by
  simp only [rowsOf, List.mem_map, (hscan b).mem_iff]
  constructor
  · rintro ⟨row, ⟨rest, hrow⟩, rfl⟩
    exact ⟨rest, row, hrow, rfl⟩
  · rintro ⟨rest, row, hrow, rfl⟩
    exact ⟨row, ⟨rest, hrow⟩, rfl⟩

theorem wanted_iff (hscan : Listed scan db) {c : ConversationResponse} :
    Wanted bots admin_id db status bot_id c ↔
      (∃ b ∈ scope bots admin_id bot_id, c ∈ rowsOf scan db b) ∧ HasStatus status c := by
  simp only [Wanted, mem_scope, mem_rowsOf hscan]

/-- There are finitely many. -/
theorem exists_wanted (hscan : Listed scan db) : ∃ l : List ConversationResponse, ∀ c,
    Wanted bots admin_id db status bot_id c ↔ c ∈ l := by
  classical
  refine ⟨((scope bots admin_id bot_id).flatMap (rowsOf scan db)).filter
    fun c => HasStatus status c, fun c => ?_⟩
  rw [wanted_iff hscan, List.mem_filter, List.mem_flatMap, decide_eq_true_eq]

theorem collectConversations_eq (bot_ids : List String) :
    collectConversations scan db limit bot_ids = firstOfEach (rowsOf scan db) limit bot_ids :=
  List.flatMap_congr fun _ _ => List.map_take

/-- **The page**: the newest of the first rows of each bot. -/
theorem page_eq (h : listConversations scan bots admin_id db status bot_id limit = .ok page) :
    page = (descending ConversationResponse.sortKey (firstOfEach (rowsOf scan db) limit
      (scope bots admin_id bot_id))).take limit := by
  rw [listConversations] at h
  simp only [collectConversations_eq] at h
  rw [scope]
  cases hbot : truthy bot_id with
  | none =>
    simp only [hbot] at h ⊢
    split at h
    · next hempty =>
      rw [List.isEmpty_iff.mp hempty, ← Response.ok.inj h]
      simp [firstOfEach, descending]
    · exact (Response.ok.inj h).symm
  | some b =>
    simp only [hbot] at h ⊢
    split at h
    · next hempty =>
      rw [List.isEmpty_iff.mp hempty, ← Response.ok.inj h]
      simp [firstOfEach, descending]
    · split at h
      · cases h
      · next hmem =>
        rw [if_pos (not_not.mp hmem)]
        exact (Response.ok.inj h).symm

/-- **The page is right exactly if nothing spoils it**: the page of conversations is the first
`limit` of those that are asked for if and only if the rows meet the condition. -/
theorem rightPage_iff (hscan : Listed scan db)
    (h : listConversations scan bots admin_id db status bot_id limit = .ok page) :
    RightPage bots admin_id db status bot_id limit page ↔
      Unspoiled (rowsOf scan db) (scope bots admin_id bot_id) status limit := by
  rw [RightPage, exists_ranking_take_iff (exists_wanted hscan), page_eq h,
    isTop_take_descending_iff]
  constructor
  · rintro ⟨hwanted, hsingle, hcovered⟩
    refine ⟨fun p hp => (hwanted p hp).2, hsingle, fun b hb c hc hs => hcovered c ?_⟩
    exact (wanted_iff hscan).mpr ⟨⟨b, hb, List.mem_of_mem_drop hc⟩, hs⟩
  · rintro ⟨hstatus, hsingle, hfurther⟩
    refine ⟨fun p hp => (wanted_iff hscan).mpr ⟨?_, hstatus p hp⟩, hsingle, fun c hc => ?_⟩
    · obtain ⟨b, hb, hmem⟩ := List.mem_flatMap.mp hp.fst_mem
      exact ⟨b, hb, List.mem_of_mem_take hmem⟩
    · obtain ⟨⟨b, hb, hmem⟩, hs⟩ := (wanted_iff hscan).mp hc
      rw [← List.take_append_drop limit (rowsOf scan db b)] at hmem
      rcases List.mem_append.mp hmem with htake | hdrop
      · exact covered_of_mem (List.mem_flatMap.mpr ⟨b, hb, htake⟩)
      · exact hfurther b hb c hdrop hs

/-! ### Rows of `chat_start` -/

/-- A bot whose rows are listed with the newest first has no further row that is missed. -/
theorem covered_of_pairwise {rows : String → List ConversationResponse} {bot_ids : List String}
    {b : String} (hb : b ∈ bot_ids) (hrows : (rows b).Pairwise fun c d => d.sortKey ≤ c.sortKey)
    {c : ConversationResponse} (hc : c ∈ (rows b).drop limit) :
    Covered ConversationResponse.sortKey ConversationResponse.conversation_id
      (firstOfEach rows limit bot_ids) limit c := by
  refine Or.inr ?_
  rw [← List.take_append_drop limit (rows b), List.pairwise_append] at hrows
  have hcount : ((rows b).take limit).countP (fun d => c.sortKey ≤ d.sortKey) = limit := by
    rw [List.countP_eq_length.mpr fun d hd => decide_eq_true (hrows.2.2 d hd c hc),
      length_take_of_mem_drop hc]
  calc limit = ((rows b).take limit).countP fun d => c.sortKey ≤ d.sortKey := hcount.symm
    _ ≤ _ := by
      rw [firstOfEach, List.flatMap_def]
      exact (List.sublist_flatten_of_mem
        (List.mem_map_of_mem (f := fun b => (rows b).take limit) hb)).countP_le

/-- What is started later is not older. -/
theorem sortKey_le_of_latestFirst {t t' u u' : Cell} (h : latestFirst [t, u] [t', u'])
    {c c' : ConversationResponse} (hc : c.last_message_at = some t)
    (hc' : c'.last_message_at = some t') : c'.sortKey ≤ c.sortKey := by
  rw [ConversationResponse.sortKey, ConversationResponse.sortKey, hc, hc']
  rcases h with hbefore | ⟨rfl, -⟩
  · cases t <;> cases t' <;> simp only [Cell.before] at hbefore <;> first | rfl | exact hbefore.le
  · exact le_rfl

theorem pairwise_rowsOf (hplain : BotView.Plain db) (hscan : Listed scan db) (b : String) :
    (rowsOf scan db b).Pairwise fun c d => d.sortKey ≤ c.sortKey := by
  obtain ⟨keys, hkeys, -, hrows⟩ := hscan b
  rw [rowsOf, hrows, List.pairwise_map, List.pairwise_filterMap]
  refine hkeys.imp fun {key key'} hlatest row hrow row' hrow' => ?_
  obtain ⟨_, t, _, hkey, hplainRow⟩ := hplain _ row hrow
  obtain ⟨_, t', _, hkey', hplainRow'⟩ := hplain _ row' hrow'
  rw [(List.cons.inj hkey).2, (List.cons.inj hkey').2] at hlatest
  exact sortKey_le_of_latestFirst hlatest hplainRow.last_message_at hplainRow'.last_message_at

/-- **Rows of `chat_start`**: without a filter, or when the active conversations are asked for, the
page is right if and only if it shows no conversation twice. -/
theorem rightPage_iff_of_plain (hplain : BotView.Plain db) (hscan : Listed scan db)
    (h : listConversations scan bots admin_id db status bot_id limit = .ok page)
    (hstatus : ∀ s, truthy status = some s → s = "active") :
    RightPage bots admin_id db status bot_id limit page ↔ (page.map (·.conversation_id)).Nodup := by
  rw [rightPage_iff hscan h, page_eq h, nodup_iff_single]
  refine ⟨Unspoiled.single, fun hsingle => ⟨fun p hp s hs => ?_, hsingle, fun b hb c hc _ => ?_⟩⟩
  · obtain ⟨b, -, hmem⟩ := List.mem_flatMap.mp hp.fst_mem
    obtain ⟨rest, row, hrow, heq⟩ := (mem_rowsOf hscan).mp (List.mem_of_mem_take hmem)
    obtain ⟨_, _, _, -, hplainRow⟩ := hplain _ row hrow
    rw [heq, hstatus s hs]
    exact hplainRow.status
  · exact covered_of_pairwise hb (pairwise_rowsOf hplain hscan b) hc

/-- **In every run of the handlers and the worker**, in every state of it. -/
theorem rightPage_iff_of_run {schedule : List BotView.Action} {s : Handlers.Stored}
    (hr : Transition.run BotView.step BotView.start schedule = some s) (hscan : Listed scan s.db)
    (h : listConversations scan bots admin_id s.db status bot_id limit = .ok page)
    (hstatus : ∀ s, truthy status = some s → s = "active") :
    RightPage bots admin_id s.db status bot_id limit page ↔
      (page.map (·.conversation_id)).Nodup := by
  have hreachable : Transition.Reachable BotView.step (· = BotView.start) s :=
    Transition.reachable_of_run rfl hr
  have hplain : BotView.Plain s.db := by
    refine hreachable.invariant (I := fun s => BotView.Plain s.db) ?_
      fun s a s' hplain hs => BotView.plain_step hplain hs
    rintro s rfl key row hrow
    exact absurd hrow (by simp [BotView.start, Database.empty])
  exact rightPage_iff_of_plain hplain hscan h hstatus

end Page

/-! ### Two chats -/

/-- Rows that a `chat_start` has added. -/
theorem eq_of_isSome_apply {db : Database Table} {env : Env} {event : ChatStartEvent} {b : String}
    {rest : List Cell} (hbot : event.bot_id ≠ "")
    (h : (botPartition (db.apply schema (Handlers.insertConversationByBot env event)) b
      rest).isSome) :
    rest = [env.now.cell, .text event.conversation_id] ∨ (botPartition db b rest).isSome := by
  by_cases hrest : rest = [env.now.cell, .text event.conversation_id]
  · exact Or.inl hrest
  · have haccepted : (Handlers.insertConversationByBot env event).accepted schema := by
      rw [Handlers.accepted_insertConversationByBot, decide_eq_true_eq]
      exact hbot
    rw [botPartition, Database.apply_of_key_ne haccepted
      (BotView.keyOf_insertConversationByBot _ _) fun heq => hrest (List.cons.inj heq).2] at h
    exact Or.inr h

def onePm : DateTime := { micros := 1748264400000000, range := by decide }

/-- The view after a chat has started at noon. -/
def oneChat : Database Table :=
  Database.empty.apply schema (Handlers.insertConversationByBot (Env.healthy .noon) BotView.chat)

/-- And after another one an hour later. -/
def twoChats : Database Table :=
  oneChat.apply schema (Handlers.insertConversationByBot (Env.healthy onePm)
    { BotView.chat with conversation_id := "d" })

def chatKeys : List (List Cell) := [[onePm.cell, .text "d"], [DateTime.noon.cell, .text "c"]]

def chatScan (partition : List Cell → Option Row) : List Row := chatKeys.filterMap partition

def oneBot : List Bot := [⟨"bot-1", "admin-1", "key-1", true⟩]

/-- The response for a chat. -/
def active (conversation_id : String) (now : DateTime) : ConversationResponse where
  conversation_id := some (.text conversation_id)
  bot_id := some (.text "bot-1")
  user_id := some (.text "u1")
  agent_id := none
  status := some (.text "active")
  started_at := some now.cell
  last_message_at := some now.cell
  last_message_preview := none

theorem mem_chatKeys_of_oneChat {b : String} {rest : List Cell}
    (h : (botPartition oneChat b rest).isSome) : rest ∈ chatKeys := by
  rcases eq_of_isSome_apply (by decide) h with rfl | hempty
  · exact List.mem_cons_of_mem _ List.mem_cons_self
  · exact absurd hempty (by simp [botPartition, Database.empty])

theorem mem_chatKeys_of_twoChats {b : String} {rest : List Cell}
    (h : (botPartition twoChats b rest).isSome) : rest ∈ chatKeys := by
  rcases eq_of_isSome_apply (by decide) h with rfl | hone
  · exact List.mem_cons_self
  · exact mem_chatKeys_of_oneChat hone

theorem listed_chatScan {db : Database Table}
    (h : ∀ b rest, (botPartition db b rest).isSome → rest ∈ chatKeys) : Listed chatScan db := by
  intro b
  have hlater : DateTime.noon.cell.before onePm.cell := by
    change (1748260800000 : ℤ) < 1748264400000
    decide
  exact lists_filterMap (List.pairwise_pair.mpr (Or.inl hlater)) (h b)

/-- Of the two, the limit leaves the later one. -/
theorem rightPage_active :
    RightPage oneBot "admin-1" twoChats (some "active") none 1 [active "d" onePm] := by
  have hnewest : ∀ p, Newest (rowsOf chatScan twoChats) (scope oneBot "admin-1" none) 1 p →
      p = (active "d" onePm, 0) := fun p hp => List.mem_singleton.mp hp.mem
  refine (rightPage_iff (listed_chatScan fun _ _ => mem_chatKeys_of_twoChats) rfl).mpr
    ⟨fun p hp => ?_, fun p q hp hq _ => ?_, fun b hb c hc _ => ?_⟩
  · rw [hnewest p hp]
    intro s hs
    obtain rfl := Option.some.inj (show some "active" = some s from hs)
    rfl
  · rw [hnewest p hp, hnewest q hq]
  · obtain rfl : b = "bot-1" := List.mem_singleton.mp hb
    obtain rfl : c = active "c" .noon := List.mem_singleton.mp hc
    exact Or.inr (by decide)

/-- **The filter is not applied**: an active conversation on the page of those that have ended. -/
theorem not_rightPage : ¬∀ (scan : (List Cell → Option Row) → List Row) (bots : List Bot)
    (admin_id : String) (db : Database Table) (status bot_id : Option String) (limit : ℕ)
    (page : List ConversationResponse), Listed scan db → 1 ≤ limit → limit ≤ 200 →
      listConversations scan bots admin_id db status bot_id limit = .ok page →
      RightPage bots admin_id db status bot_id limit page := by
  intro h
  obtain ⟨all, hall, hpage⟩ := h chatScan oneBot "admin-1" oneChat (some "ended") none 50
    [active "c" .noon] (listed_chatScan fun _ _ => mem_chatKeys_of_oneChat) (by decide) (by decide)
    rfl
  have hmem : active "c" .noon ∈ all := List.mem_of_mem_take (hpage ▸ List.mem_singleton_self _)
  exact absurd ((hall.mem _ hmem).2 "ended" rfl) (by decide)

end ConversationPages

end TitanChat
