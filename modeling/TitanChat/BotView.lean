import TitanChat.ApiRoutes
import TitanChat.HistoryOrder
import TitanChat.Redelivery

/-!
# The view by bot

`conversations_by_bot` repeats, for the list of the dashboard, what `conversations` has of the chats
of a bot. Only `chat_start` writes it: the status is "active", the last message is the start, and
there is no agent and no preview. The row has the time of the start in its key. Everything that
happens to the conversation afterwards is written to `conversations` alone.

So the view agrees as long as nothing happens: each chat of a bot is started once, or more than once
in the same millisecond, and no agent, message or end reaches its row.

## Main definitions

* `BotView.step`: the handlers and the persistence worker, without failures
* `Consistent`: the property
* `Spares`: the condition on a step

## Main results

* `consistent_iff_untouched`: the view agrees with a conversation to which nothing has happened
* `view_consistent_iff`: the exact statement
-/

namespace TitanChat

open WideColumn Handlers Persistence Replay

namespace BotView

/-! ### Handlers and the worker -/

inductive Action where
  /-- The handler of an event, with the agent that a transfer finds. -/
  | handle (env : Env) (agent_id : Option String) (e : Event)
  /-- The worker consumes a record; across partitions the order is free. -/
  | consume (n : ℕ)

/-- The statements of a handler are on different tables, so that it makes no difference if others
come in between. -/
def step (s : Stored) : Action → Option Stored
  | .handle env agent_id e => (e.ops env agent_id).foldlM Stored.perform s
  | .consume n => s.records[n]?.map fun v =>
      { db := perform (Database.apply schema) s.db (recordWrites schema v)
        records := s.records.eraseIdx n }

def start : Stored where
  db := .empty
  records := []

/-- A row of the view. -/
def viewRow (db : Database Table) (b : String) (started_at : Cell) (c : String) : Option Row :=
  db .conversationsByBot [.text b, started_at, .text c]

/-- A column of a conversation. -/
def column (db : Database Table) (c name : String) : Option Cell :=
  (conversationRow db c).bind (·.lookup name)

/-! ### The property -/

/-- What the two tables have in common and what may change. -/
def shared : List String := ["status", "agent_id", "last_message_at", "last_message_preview"]

/-- The two responses show the same. -/
structure SameAs (d d' : ConversationResponse) : Prop where
  status : d.status = d'.status
  agent_id : d.agent_id = d'.agent_id
  last_message_at : d.last_message_at = d'.last_message_at
  last_message_preview : d.last_message_preview = d'.last_message_preview

/-- A scan returns rows of the partition. -/
def Scans (scan : (List Cell → Option Row) → List Row) : Prop :=
  ∀ partition, ∀ row ∈ scan partition, ∃ key, partition key = some row

/-- **The view agrees with the conversation**, for a conversation of bot `b`. -/
structure Consistent (db : Database Table) (c b : String) : Prop where
  one : ∃! started_at, (viewRow db b started_at c).isSome
  columns : ∀ started_at row, viewRow db b started_at c = some row → ∀ name ∈ shared,
    row.lookup name = column db c name
  listed : ∀ scan bots admin_id status bot_id limit d ds, Scans scan →
    getConversation bots admin_id db c = .ok d →
    listConversations scan bots admin_id db status bot_id limit = .ok ds →
    ∀ entry ∈ ds, entry.conversation_id = some (.text c) → SameAs entry d

/-- The conversation has this bot. -/
def HasBot (db : Database Table) (c b : String) : Prop :=
  column db c "bot_id" = some (.text b) ∧ b ≠ ""

/-- For every conversation that has a bot. -/
def ViewConsistent (s : Stored) : Prop := ∀ c b, HasBot s.db c b → Consistent s.db c b

/-- No other start, and neither an agent nor a message. -/
structure FirstStart (db : Database Table) (c : String) (now : DateTime) : Prop where
  only : ∀ b started_at, (viewRow db b started_at c).isSome → started_at = now.cell
  agent_id : column db c "agent_id" = none
  preview : column db c "last_message_preview" = none

/-- **The condition.** A chat of a bot is started for the first time, or again in the same
millisecond, and before anything has happened to it; a transfer that finds an agent, and a record of
a message or of an end, are about a conversation without a bot. -/
def Spares (s : Stored) : Action → Prop
  | .handle env _ (.chatStart event) =>
    event.bot_id ≠ "" → FirstStart s.db event.conversation_id env.now
  | .handle _ (some _) (.transferToAgent event) => ∀ b, ¬HasBot s.db event.conversation_id b
  | .handle _ _ _ => True
  | .consume n => ∀ v, s.records[n]? = some v → ∀ stmt ∈ recordWrites schema v, ∀ c,
      WritesRow c stmt → ∀ b, ¬HasBot s.db c b

/-! ### What the view has -/

/-- The rows of the view are as `chat_start` has made them. -/
structure PlainRow (b : String) (started_at : Cell) (c : String) (row : Row) : Prop where
  bot_id : row.lookup "bot_id" = some (.text b)
  conversation_id : row.lookup "conversation_id" = some (.text c)
  status : row.lookup "status" = some (.text "active")
  agent_id : row.lookup "agent_id" = none
  last_message_at : row.lookup "last_message_at" = some started_at
  preview : row.lookup "last_message_preview" = none

def Plain (db : Database Table) : Prop :=
  ∀ key row, db .conversationsByBot key = some row →
    ∃ b started_at c, key = [.text b, started_at, .text c] ∧ PlainRow b started_at c row

/-- A conversation of a bot to which nothing has happened. -/
structure Untouched (db : Database Table) (c b : String) : Prop where
  started : ∃ started_at, (viewRow db b started_at c).isSome
  same : ∀ b' started_at, (viewRow db b' started_at c).isSome →
    column db c "last_message_at" = some started_at
  status : column db c "status" = some (.text "active")
  agent_id : column db c "agent_id" = none
  preview : column db c "last_message_preview" = none

section Consistent

variable {db : Database Table} {c b : String}

theorem plainRow_of_viewRow (hplain : Plain db) {b' : String} {started_at : Cell} {row : Row}
    (h : viewRow db b' started_at c = some row) : PlainRow b' started_at c row := by
  obtain ⟨b₁, t₁, c₁, hkey, hrow⟩ := hplain _ row h
  simp only [List.cons.injEq, Cell.text.injEq, and_true] at hkey
  obtain ⟨rfl, rfl, rfl⟩ := hkey
  exact hrow

/-- A row of the view and the conversation. -/
theorem PlainRow.lookup_eq {b' : String} {started_at : Cell} {row : Row}
    (hrow : PlainRow b' started_at c row) (h : Untouched db c b)
    (hview : (viewRow db b' started_at c).isSome) {name : String} (hname : name ∈ shared) :
    row.lookup name = column db c name := by
  simp only [shared, List.mem_cons, List.not_mem_nil, or_false] at hname
  obtain rfl | rfl | rfl | rfl := hname
  · rw [hrow.status, h.status]
  · rw [hrow.agent_id, h.agent_id]
  · rw [hrow.last_message_at, h.same _ _ hview]
  · rw [hrow.preview, h.preview]

theorem sameAs_ofRow {row row' : Row}
    (h : ∀ name ∈ shared, row.lookup name = row'.lookup name) :
    SameAs (ConversationResponse.ofRow row) (ConversationResponse.ofRow row') where
  status := h _ (by simp [shared])
  agent_id := h _ (by simp [shared])
  last_message_at := h _ (by simp [shared])
  last_message_preview := h _ (by simp [shared])

/-- An entry of the list is a row of the view. -/
theorem exists_row_of_mem {scan : (List Cell → Option Row) → List Row} (hscan : Scans scan)
    {bots : List Bot} {admin_id : String} {status bot_id : Option String} {limit : ℕ}
    {ds : List ConversationResponse}
    (h : listConversations scan bots admin_id db status bot_id limit = .ok ds)
    {entry : ConversationResponse} (hentry : entry ∈ ds) :
    ∃ key row, db .conversationsByBot key = some row ∧ entry = .ofRow row := by
  have hcollect : ∀ {bot_ids : List String},
      entry ∈ (newestFirst (collectConversations scan db limit bot_ids)).take limit →
        ∃ key row, db .conversationsByBot key = some row ∧ entry = .ofRow row := by
    intro bot_ids hmem
    have hmem := (List.perm_insertionSort _ _).mem_iff.mp (List.mem_of_mem_take hmem)
    obtain ⟨bid, -, hmem⟩ := List.mem_flatMap.mp hmem
    obtain ⟨row, hrow, rfl⟩ := List.mem_map.mp hmem
    obtain ⟨rest, hrest⟩ := hscan _ row (List.mem_of_mem_take hrow)
    exact ⟨_, row, hrest, rfl⟩
  simp only [listConversations] at h
  split at h
  · obtain rfl := Response.ok.inj h
    exact absurd hentry List.not_mem_nil
  · split at h
    · split at h
      · exact absurd h nofun
      · obtain rfl := Response.ok.inj h
        exact hcollect hentry
    · obtain rfl := Response.ok.inj h
      exact hcollect hentry

/-- If nothing has happened to a conversation, the view agrees with it. -/
theorem Untouched.consistent (h : Untouched db c b) (hplain : Plain db) : Consistent db c b where
  one := by
    obtain ⟨t, ht⟩ := h.started
    refine ⟨t, ht, fun t' ht' => ?_⟩
    exact Option.some.inj ((h.same b t' ht').symm.trans (h.same b t ht))
  columns t row hrow name hname :=
    (plainRow_of_viewRow hplain hrow).lookup_eq h (Option.isSome_of_eq_some hrow) hname
  listed scan bots admin_id status bot_id limit d ds hscan hget hlist entry hentry hc := by
    obtain ⟨key, row, hrow, rfl⟩ := exists_row_of_mem hscan hlist hentry
    obtain ⟨b', t, c', rfl, hplainRow⟩ := hplain key row hrow
    obtain rfl : c' = c := Cell.text.inj (Option.some.inj (hplainRow.conversation_id.symm.trans hc))
    obtain ⟨base, hbase, rfl⟩ := eq_of_ok hget
    refine sameAs_ofRow fun name hname => ?_
    have hcolumn := hplainRow.lookup_eq h (Option.isSome_of_eq_some hrow) hname
    rw [hcolumn, column, hbase, Option.bind_some]

/-- Whoever has both bots sees the conversation and every row of it. -/
theorem Consistent.last_message_at (h : Consistent db c b) (hplain : Plain db)
    (hbot : HasBot db c b) {b' : String} {t : Cell} {row : Row}
    (hrow : viewRow db b' t c = some row) :
    column db c "last_message_at" = some t := by
  obtain ⟨base, hbase, hb⟩ := Option.bind_eq_some_iff.mp hbot.1
  have hplainRow := plainRow_of_viewRow hplain hrow
  let bots : List Bot := [⟨b, "", "", true⟩, ⟨b', "", "", true⟩]
  let scan : (List Cell → Option Row) → List Row := fun partition =>
    (partition [t, .text c]).toList
  have hscan : Scans scan := fun partition r hr => ⟨_, Option.mem_toList.mp hr⟩
  have hget : getConversation bots "" db c = .ok (.ofRow base) := by
    simp [getConversation, withAccess, hbase, refuses, hb, getAdminBotIds, bots]
  have hlist : listConversations scan bots "" db none none 2 =
      .ok ((newestFirst (collectConversations scan db 2 [b, b'])).take 2) := by
    simp [listConversations, getAdminBotIds, bots, truthy]
  have hmem : ConversationResponse.ofRow row ∈
      (newestFirst (collectConversations scan db 2 [b, b'])).take 2 := by
    have hone : ∀ bid, (scan (botPartition db bid)).length ≤ 1 := fun _ => Option.length_toList_le
    have hb := hone b
    have hb' := hone b'
    have hlength : (newestFirst (collectConversations scan db 2 [b, b'])).length ≤ 2 := by
      simp [newestFirst, collectConversations, List.length_insertionSort]
      omega
    rw [List.take_of_length_le hlength, newestFirst, (List.perm_insertionSort _ _).mem_iff]
    refine List.mem_flatMap.mpr ⟨b', by simp, List.mem_map.mpr ⟨row, ?_, rfl⟩⟩
    rw [List.take_of_length_le (hb'.trans one_le_two)]
    exact Option.mem_toList.mpr hrow
  have hsame := h.listed scan bots "" none none 2 _ _ hscan hget hlist _ hmem
    hplainRow.conversation_id
  rw [column, hbase, Option.bind_some]
  exact hsame.last_message_at.symm.trans hplainRow.last_message_at

theorem consistent_iff_untouched (hplain : Plain db) (hbot : HasBot db c b) :
    Consistent db c b ↔ Untouched db c b := by
  refine ⟨fun h => ?_, fun h => h.consistent hplain⟩
  obtain ⟨t, ht, -⟩ := h.one
  obtain ⟨row, hrow⟩ := Option.isSome_iff_exists.mp ht
  have hplainRow := plainRow_of_viewRow hplain hrow
  have hcolumn := h.columns t row hrow
  exact {
    started := ⟨t, ht⟩
    same := fun b' t' ht' => by
      obtain ⟨row', hrow'⟩ := Option.isSome_iff_exists.mp ht'
      exact h.last_message_at hplain hbot hrow'
    status := (hcolumn "status" (by simp [shared])).symm.trans hplainRow.status
    agent_id := (hcolumn "agent_id" (by simp [shared])).symm.trans hplainRow.agent_id
    preview := (hcolumn "last_message_preview" (by simp [shared])).symm.trans hplainRow.preview }

end Consistent

/-! ### Statements on `conversations` -/

/-- Nothing has happened to any conversation of a bot. -/
def AllUntouched (db : Database Table) : Prop := ∀ c b, HasBot db c b → Untouched db c b

/-- Something has happened. -/
def Spoiled (db : Database Table) (c : String) : Prop :=
  column db c "agent_id" ≠ none ∨ column db c "last_message_preview" ≠ none ∨
    column db c "status" ≠ some (.text "active")

theorem Untouched.not_spoiled {db : Database Table} {c b : String} (h : Untouched db c b) :
    ¬Spoiled db c := by
  rintro (hagent | hpreview | hstatus)
  · exact hagent h.agent_id
  · exact hpreview h.preview
  · exact hstatus h.status

/-- A statement after which the view no longer agrees. -/
structure Spoils (stmt : Statement Table) : Prop where
  table : stmt.table ≠ .conversationsByBot
  bot_id : ∀ (db : Database Table) c,
    column (db.apply schema stmt) c "bot_id" = column db c "bot_id"
  spoils : ∀ (db : Database Table) c, WritesRow c stmt → Spoiled (db.apply schema stmt) c
  spoiled : ∀ (db : Database Table) c, Spoiled db c → Spoiled (db.apply schema stmt) c

theorem conversationRow_apply_of_table_ne {stmt : Statement Table}
    (h : stmt.table ≠ .conversations) (db : Database Table) (c : String) :
    conversationRow (db.apply schema stmt) c = conversationRow db c :=
  Database.apply_of_table_ne db stmt h.symm _

/-- A statement on a third table. -/
theorem spoils_of_table_ne {stmt : Statement Table} (hview : stmt.table ≠ .conversationsByBot)
    (h : stmt.table ≠ .conversations) : Spoils stmt where
  table := hview
  bot_id db c := by rw [column, conversationRow_apply_of_table_ne h, column]
  spoils db c hw := absurd hw.2.1 h
  spoiled db c hs := by
    simpa only [Spoiled, column, conversationRow_apply_of_table_ne h] using hs

/-- A statement that sets a column and keeps the rest. -/
theorem spoils_of_write {stmt : Statement Table} (htable : stmt.table = .conversations)
    (hbot : ∀ row, (stmt.write row).lookup "bot_id" = row.lookup "bot_id")
    (hset : ∀ row : Row, (stmt.write row).lookup "agent_id" ≠ none ∨
      (stmt.write row).lookup "last_message_preview" ≠ none ∨
        (stmt.write row).lookup "status" ≠ some (.text "active")) : Spoils stmt where
  table := by rw [htable]; nofun
  bot_id db c := by
    by_cases hw : WritesRow c stmt
    · exact lookup_of_write_eq hw (hbot _)
    · rw [column, conversationRow_of_not_writesRow hw, column]
  spoils db c hw := by
    simpa only [Spoiled, column, lookup_of_writesRow hw] using hset _
  spoiled db c hs := by
    by_cases hw : WritesRow c stmt
    · simpa only [Spoiled, column, lookup_of_writesRow hw] using hset _
    · simpa only [Spoiled, column, conversationRow_of_not_writesRow hw] using hs

theorem spoils_assignConversation (c a : String) : Spoils (assignConversation c a) := by
  refine spoils_of_write rfl (fun row => (lookup_write_assignConversation c a).1) fun row => ?_
  refine Or.inl ?_
  simp [assignConversation, Statement.write]

theorem spoils_of_workerWrite {stmt : Statement Table} (h : WorkerWrite stmt) : Spoils stmt := by
  cases h with
  | preview now text c =>
    refine spoils_of_write rfl (fun row => (lookup_write_updatePreview now _ c).1) fun row => ?_
    refine Or.inr (Or.inl ?_)
    simp [updatePreview, Statement.write]
  | close now c =>
    refine spoils_of_write rfl (fun row => (lookup_write_endConversation now c).1) fun row => ?_
    refine Or.inr (Or.inr ?_)
    rw [(lookup_write_endConversation now c).2]
    decide
  | _ => exact spoils_of_table_ne (by rintro ⟨⟩) (by rintro ⟨⟩)

section Spoil

variable {db : Database Table} {ws : List (Statement Table)}

theorem hasBot_perform (h : ∀ st ∈ ws, Spoils st) {c b : String} :
    HasBot (perform (Database.apply schema) db ws) c b ↔ HasBot db c b := by
  induction ws generalizing db with
  | nil => exact Iff.rfl
  | cons stmt ws ih =>
    rw [List.forall_mem_cons] at h
    rw [perform_cons, ih h.2, HasBot, h.1.bot_id, HasBot]

theorem spoiled_perform (h : ∀ st ∈ ws, Spoils st) {c : String} (hs : Spoiled db c) :
    Spoiled (perform (Database.apply schema) db ws) c := by
  induction ws generalizing db with
  | nil => exact hs
  | cons stmt ws ih =>
    rw [List.forall_mem_cons] at h
    exact ih h.2 (h.1.spoiled db c hs)

theorem spoiled_of_writesRow (h : ∀ st ∈ ws, Spoils st) {stmt : Statement Table} (hmem : stmt ∈ ws)
    {c : String} (hw : WritesRow c stmt) : Spoiled (perform (Database.apply schema) db ws) c := by
  obtain ⟨front, back, rfl⟩ := List.append_of_mem hmem
  rw [perform_append, perform_cons]
  refine spoiled_perform (fun st hst => h st (by simp [hst])) ?_
  exact (h stmt hmem).spoils _ c hw

theorem conversationRow_perform {c : String} (h : ∀ st ∈ ws, ¬WritesRow c st) :
    conversationRow (perform (Database.apply schema) db ws) c = conversationRow db c := by
  induction ws generalizing db with
  | nil => rfl
  | cons stmt ws ih =>
    rw [List.forall_mem_cons] at h
    rw [perform_cons, ih h.2, conversationRow_of_not_writesRow h.1]

theorem view_perform (h : ∀ st ∈ ws, Spoils st) :
    perform (Database.apply schema) db ws .conversationsByBot = db .conversationsByBot := by
  induction ws generalizing db with
  | nil => rfl
  | cons stmt ws ih =>
    rw [List.forall_mem_cons] at h
    rw [perform_cons, ih h.2]
    funext key
    exact Database.apply_of_table_ne db stmt h.1.table.symm key

/-- A conversation is untouched if its rows are the same. -/
theorem Untouched.congr {db' : Database Table} {c b : String} (h : Untouched db c b)
    (hrow : conversationRow db' c = conversationRow db c)
    (hview : ∀ b' t, (viewRow db' b' t c).isSome ↔ (viewRow db b' t c).isSome) :
    Untouched db' c b where
  started := by
    obtain ⟨t, ht⟩ := h.started
    exact ⟨t, (hview b t).mpr ht⟩
  same b' t ht := by rw [column, hrow]; exact h.same b' t ((hview b' t).mp ht)
  status := by rw [column, hrow]; exact h.status
  agent_id := by rw [column, hrow]; exact h.agent_id
  preview := by rw [column, hrow]; exact h.preview

/-- **Statements that spoil.** Nothing has happened afterwards exactly if they are about
conversations without a bot. -/
theorem allUntouched_perform_iff (hi : AllUntouched db) (h : ∀ st ∈ ws, Spoils st) :
    AllUntouched (perform (Database.apply schema) db ws) ↔
      ∀ stmt ∈ ws, ∀ c, WritesRow c stmt → ∀ b, ¬HasBot db c b := by
  constructor
  · intro hafter stmt hmem c hw b hbot
    exact (hafter c b ((hasBot_perform h).mpr hbot)).not_spoiled (spoiled_of_writesRow h hmem hw)
  · intro hfree c b hbot
    have hbot := (hasBot_perform h).mp hbot
    refine (hi c b hbot).congr (conversationRow_perform fun st hst hw => hfree st hst c hw b hbot)
      fun b' t => ?_
    rw [viewRow, view_perform h, viewRow]

end Spoil

/-! ### A chat that starts -/

section Start

variable {db : Database Table} {env : Env} {event : ChatStartEvent}

theorem keyOf_insertConversationByBot (env : Env) (event : ChatStartEvent) :
    (schema .conversationsByBot).keyOf (insertConversationByBot env event).bound =
      some [.text event.bot_id, env.now.cell, .text event.conversation_id] := by
  simp [insertConversationByBot, Statement.bound, TableSchema.keyOf, TableSchema.key, schema,
    List.lookup_cons, Option.filter_some]

theorem Plain.apply_of_table_ne (h : Plain db) {stmt : Statement Table}
    (hne : stmt.table ≠ .conversationsByBot) : Plain (db.apply schema stmt) := by
  intro key row hrow
  rw [Database.apply_of_table_ne db stmt hne.symm] at hrow
  exact h key row hrow

/-- The columns that `chat_start` leaves alone. -/
theorem Plain.lookup_getD (h : Plain db) (key : List Cell) :
    ((db .conversationsByBot key).getD ∅).lookup "agent_id" = none ∧
      ((db .conversationsByBot key).getD ∅).lookup "last_message_preview" = none := by
  cases hrow : db .conversationsByBot key with
  | none => exact ⟨rfl, rfl⟩
  | some row =>
    obtain ⟨b, t, c, -, hplain⟩ := h key row hrow
    exact ⟨hplain.agent_id, hplain.preview⟩

/-- A row of the view after it has been written. -/
theorem plainRow_write (env : Env) (event : ChatStartEvent) {row : Row}
    (h : row.lookup "agent_id" = none ∧ row.lookup "last_message_preview" = none) :
    PlainRow event.bot_id env.now.cell event.conversation_id
      ((insertConversationByBot env event).write row) where
  bot_id := by simp [insertConversationByBot, Statement.write]
  conversation_id := by simp [insertConversationByBot, Statement.write]
  status := by simp [insertConversationByBot, Statement.write]
  agent_id := by simp [insertConversationByBot, Statement.write, h.1]
  last_message_at := by simp [insertConversationByBot, Statement.write]
  preview := by simp [insertConversationByBot, Statement.write, h.2]

theorem Plain.insertConversationByBot (h : Plain db) (env : Env) (event : ChatStartEvent) :
    Plain (db.apply schema (insertConversationByBot env event)) := by
  intro key row hrow
  cases haccepted : (Handlers.insertConversationByBot env event).accepted schema with
  | false =>
    rw [Database.apply_of_not_accepted haccepted] at hrow
    exact h key row hrow
  | true =>
    have hkey := keyOf_insertConversationByBot env event
    by_cases heq : key = [.text event.bot_id, env.now.cell, .text event.conversation_id]
    · refine ⟨event.bot_id, env.now.cell, event.conversation_id, heq, ?_⟩
      have hself := Database.apply_self db haccepted hkey
      rw [heq] at hrow
      obtain rfl := Option.some.inj (hself.symm.trans hrow)
      exact plainRow_write env event (h.lookup_getD _)
    · rw [Database.apply_of_key_ne haccepted hkey heq] at hrow
      exact h key row hrow

theorem viewRow_insertConversationByBot
    (h : (insertConversationByBot env event).accepted schema) (b : String) (t : Cell) (c : String) :
    (viewRow (db.apply schema (insertConversationByBot env event)) b t c).isSome ↔
      (b = event.bot_id ∧ t = env.now.cell ∧ c = event.conversation_id) ∨
        (viewRow db b t c).isSome := by
  have hkey := keyOf_insertConversationByBot env event
  by_cases heq : [Cell.text b, t, .text c] =
      [.text event.bot_id, env.now.cell, .text event.conversation_id]
  · have hself := Database.apply_self db h hkey
    simp only [List.cons.injEq, Cell.text.injEq, and_true] at heq
    obtain ⟨rfl, rfl, rfl⟩ := heq
    exact iff_of_true (Option.isSome_of_eq_some hself) (Or.inl ⟨rfl, rfl, rfl⟩)
  · rw [viewRow, Database.apply_of_key_ne h hkey heq, viewRow, or_iff_right]
    rintro ⟨rfl, rfl, rfl⟩
    exact heq rfl

/-- The conversation after its `INSERT`. -/
theorem column_insertConversation (db : Database Table)
    (h : (insertConversation env event).accepted schema) :
    column (db.apply schema (insertConversation env event)) event.conversation_id "bot_id" =
        some (.text event.bot_id) ∧
      column (db.apply schema (insertConversation env event)) event.conversation_id "status" =
        some (.text "active") ∧
      column (db.apply schema (insertConversation env event)) event.conversation_id
        "last_message_at" = some env.now.cell ∧
      column (db.apply schema (insertConversation env event)) event.conversation_id "agent_id" =
        column db event.conversation_id "agent_id" ∧
      column (db.apply schema (insertConversation env event)) event.conversation_id
        "last_message_preview" = column db event.conversation_id "last_message_preview" := by
  have hw : WritesRow event.conversation_id (insertConversation env event) := by
    rw [accepted_insertConversation, decide_eq_true_eq] at h
    exact writesRow_insertConversation.mpr ⟨h, rfl⟩
  have hbot : ((insertConversation env event).write
        ((conversationRow db event.conversation_id).getD ∅)).lookup "bot_id" =
      some (.text event.bot_id) ∧ _ := lookup_write_insertConversation env event
  refine ⟨?_, ?_, ?_, lookup_of_write_eq hw ?_, lookup_of_write_eq hw ?_⟩
  · rw [column, lookup_of_writesRow hw, hbot.1]
  · rw [column, lookup_of_writesRow hw, hbot.2]
  · rw [column, lookup_of_writesRow hw]
    simp [insertConversation, Statement.write]
  · simp [insertConversation, Statement.write]
  · simp [insertConversation, Statement.write]

theorem conversationRow_insertConversation {c : String} (h : c ≠ event.conversation_id) :
    conversationRow (db.apply schema (insertConversation env event)) c = conversationRow db c :=
  conversationRow_of_not_writesRow (fun hw => h (writesRow_insertConversation.mp hw).2.symm) db

/-- The statements of `chat_start`. -/
def startStatements (env : Env) (event : ChatStartEvent) : List (Statement Table) :=
  insertConversation env event ::
    if event.bot_id ≠ "" then [insertConversationByBot env event] else []

theorem conversationRow_startStatements (db : Database Table) (c : String) :
    conversationRow (perform (Database.apply schema) db (startStatements env event)) c =
      conversationRow (db.apply schema (insertConversation env event)) c := by
  rw [startStatements, perform_cons]
  split
  · have hne : (insertConversationByBot env event).table ≠ .conversations := by rintro ⟨⟩
    rw [perform_cons, perform_nil, conversationRow_apply_of_table_ne hne]
  · rfl

theorem column_startStatements (db : Database Table) (c name : String) :
    column (perform (Database.apply schema) db (startStatements env event)) c name =
      column (db.apply schema (insertConversation env event)) c name := by
  rw [column, conversationRow_startStatements, column]

theorem viewRow_startStatements (h : ∀ st ∈ startStatements env event, st.accepted schema)
    (b : String) (t : Cell) (c : String) :
    (viewRow (perform (Database.apply schema) db (startStatements env event)) b t c).isSome ↔
      (event.bot_id ≠ "" ∧ b = event.bot_id ∧ t = env.now.cell ∧ c = event.conversation_id) ∨
        (viewRow db b t c).isSome := by
  have hne : Table.conversationsByBot ≠ (insertConversation env event).table := by rintro ⟨⟩
  have hfirst : viewRow (db.apply schema (insertConversation env event)) b t c = viewRow db b t c :=
    Database.apply_of_table_ne db _ hne _
  rw [startStatements, perform_cons]
  split
  · next hbot =>
    rw [startStatements, if_pos hbot] at h
    rw [perform_cons, perform_nil, viewRow_insertConversationByBot (h _ (by simp)), hfirst]
    simp [hbot]
  · next hbot =>
    rw [perform_nil, hfirst]
    simp [hbot]

/-- **A chat that starts.** Nothing has happened afterwards exactly if it is a first start, or has
no bot. -/
theorem allUntouched_start_iff (hi : AllUntouched db)
    (h : ∀ st ∈ startStatements env event, st.accepted schema) :
    AllUntouched (perform (Database.apply schema) db (startStatements env event)) ↔
      (event.bot_id ≠ "" → FirstStart db event.conversation_id env.now) := by
  obtain ⟨hbot, hstatus, hlast, hagent, hpreview⟩ :=
    column_insertConversation db (h _ List.mem_cons_self)
  constructor
  · intro hafter hne
    have hu := hafter event.conversation_id event.bot_id
      ⟨(column_startStatements ..).trans hbot, hne⟩
    refine ⟨fun b t ht => ?_, ?_, ?_⟩
    · have hsame := hu.same b t ((viewRow_startStatements h ..).mpr (Or.inr ht))
      rw [column_startStatements, hlast] at hsame
      exact (Option.some.inj hsame).symm
    · rw [← hagent, ← column_startStatements, hu.agent_id]
    · rw [← hpreview, ← column_startStatements, hu.preview]
  · rintro hfirst c b ⟨hc, hne⟩
    by_cases heq : c = event.conversation_id
    · subst heq
      rw [column_startStatements, hbot] at hc
      obtain rfl : event.bot_id = b := Cell.text.inj (Option.some.inj hc)
      have hfirst := hfirst hne
      refine ⟨⟨env.now.cell, (viewRow_startStatements h ..).mpr (Or.inl ⟨hne, rfl, rfl, rfl⟩)⟩,
        fun b' t ht => ?_, ?_, ?_, ?_⟩
      · rw [column_startStatements, hlast]
        obtain ⟨-, -, rfl, -⟩ | hold := (viewRow_startStatements h ..).mp ht
        · rfl
        · rw [hfirst.only b' t hold]
      · rw [column_startStatements, hstatus]
      · rw [column_startStatements, hagent, hfirst.agent_id]
      · rw [column_startStatements, hpreview, hfirst.preview]
    · have hrow : conversationRow (perform (Database.apply schema) db
          (startStatements env event)) c = conversationRow db c := by
        rw [conversationRow_startStatements, conversationRow_insertConversation heq]
      refine (hi c b ⟨?_, hne⟩).congr hrow fun b' t => ?_
      · rwa [column, hrow] at hc
      · rw [viewRow_startStatements h, or_iff_right]
        exact fun h => heq h.2.2.2

end Start

/-! ### The exact statement -/

/-- The statements among some operations. -/
def statements (ops : List Op) : List (Statement Table) :=
  ops.filterMap fun
    | .execute stmt => some stmt
    | .publish _ => none

/-- What a handler that does not raise has executed. -/
theorem db_of_foldlM {ops : List Op} {s s' : Stored} (h : ops.foldlM Stored.perform s = some s') :
    s'.db = perform (Database.apply schema) s.db (statements ops) ∧
      ∀ st ∈ statements ops, st.accepted schema := by
  induction ops generalizing s with
  | nil =>
    obtain rfl := Option.some.inj h
    exact ⟨rfl, fun st hst => absurd hst List.not_mem_nil⟩
  | cons op ops ih =>
    obtain ⟨t, ht, h⟩ := Option.bind_eq_some_iff.mp h
    obtain ⟨hdb, haccepted⟩ := ih h
    cases op with
    | execute stmt =>
      obtain ⟨db, hexecute, rfl⟩ := Option.map_eq_some_iff.mp ht
      have hstmt : stmt.accepted schema := (Database.execute_eq_some.mp hexecute).1
      rw [Database.execute_eq_apply hstmt] at hexecute
      obtain rfl := Option.some.inj hexecute
      exact ⟨hdb, List.forall_mem_cons.mpr ⟨hstmt, haccepted⟩⟩
    | publish record =>
      obtain ⟨v, -, rfl⟩ := Option.map_eq_some_iff.mp ht
      exact ⟨hdb, haccepted⟩

theorem statements_chatStart (env : Env) (event : ChatStartEvent) :
    statements (chatStartOps env event) = startStatements env event := by
  rw [chatStartOps, startStatements]
  split <;> rfl

theorem Plain.perform {db : Database Table} (h : Plain db) {ws : List (Statement Table)}
    (hws : ∀ st ∈ ws, st.table ≠ .conversationsByBot ∨
      ∃ env event, st = Handlers.insertConversationByBot env event) :
    Plain (Replay.perform (Database.apply schema) db ws) := by
  induction ws generalizing db with
  | nil => exact h
  | cons stmt ws ih =>
    rw [List.forall_mem_cons] at hws
    obtain ⟨hne | ⟨env, event, rfl⟩, hws⟩ := hws
    · exact ih (h.apply_of_table_ne hne) hws
    · exact ih (h.insertConversationByBot env event) hws

/-- The statements of a handler on the view. -/
theorem statements_ops (env : Env) (agent_id : Option String) (e : Event) :
    ∀ st ∈ statements (e.ops env agent_id), st.table ≠ .conversationsByBot ∨
      ∃ env event, st = insertConversationByBot env event := by
  intro st hst
  cases e with
  | chatStart event =>
    rw [Event.ops, statements_chatStart, startStatements] at hst
    rcases List.mem_cons.mp hst with rfl | hst
    · exact Or.inl (by rintro ⟨⟩)
    · split at hst
      · exact Or.inr ⟨env, event, List.mem_singleton.mp hst⟩
      · exact absurd hst List.not_mem_nil
  | transferToAgent event =>
    cases agent_id with
    | none => exact absurd hst List.not_mem_nil
    | some a =>
      obtain rfl : st = assignConversation event.conversation_id a := List.mem_singleton.mp hst
      exact Or.inl (by rintro ⟨⟩)
  | _ => exact absurd hst List.not_mem_nil

variable {s s' : Stored} {a : Action}

theorem plain_step (h : Plain s.db) (hs : step s a = some s') : Plain s'.db := by
  cases a with
  | handle env agent_id e =>
    rw [(db_of_foldlM hs).1]
    exact h.perform (statements_ops env agent_id e)
  | consume n =>
    obtain ⟨v, -, rfl⟩ := Option.map_eq_some_iff.mp hs
    exact h.perform fun st hst => Or.inl (spoils_of_workerWrite (workerWrite_of_mem hst)).table

/-- **One step.** -/
theorem allUntouched_step_iff (hi : AllUntouched s.db) (hs : step s a = some s') :
    AllUntouched s'.db ↔ Spares s a := by
  cases a with
  | handle env agent_id e =>
    obtain ⟨hdb, haccepted⟩ := db_of_foldlM hs
    rw [hdb]
    cases e with
    | chatStart event =>
      rw [Event.ops, statements_chatStart] at haccepted ⊢
      exact allUntouched_start_iff hi haccepted
    | transferToAgent event =>
      cases agent_id with
      | none => exact iff_of_true hi trivial
      | some a =>
        have hspoils : ∀ st ∈ statements
            ((Event.transferToAgent event).ops env (some a)), Spoils st := by
          intro st hst
          obtain rfl := List.mem_singleton.mp hst
          exact spoils_assignConversation _ _
        have hmem : assignConversation event.conversation_id a ∈
            statements ((Event.transferToAgent event).ops env (some a)) := List.mem_singleton_self _
        have hnamed := haccepted _ hmem
        rw [accepted_assignConversation, decide_eq_true_eq] at hnamed
        rw [allUntouched_perform_iff hi hspoils]
        constructor
        · exact fun h => h _ hmem _ (writesRow_assignConversation.mpr ⟨hnamed, rfl⟩)
        · intro h st hst c hw
          obtain rfl := List.mem_singleton.mp hst
          exact (writesRow_assignConversation.mp hw).2 ▸ h
    | _ => exact iff_of_true hi trivial
  | consume n =>
    obtain ⟨v, hv, rfl⟩ := Option.map_eq_some_iff.mp hs
    rw [allUntouched_perform_iff hi fun st hst => spoils_of_workerWrite (workerWrite_of_mem hst)]
    simp [Spares, hv]

theorem viewConsistent_iff (h : Plain s.db) : ViewConsistent s ↔ AllUntouched s.db :=
  forall₂_congr fun _ _ => forall_congr' fun hbot => consistent_iff_untouched h hbot

/-- **The view agrees exactly as long as nothing happens.** In every failure-free run of the
handlers and the worker, `conversations_by_bot` agrees with `conversations` in every state if and
only if each step meets the condition. -/
theorem view_consistent_iff (schedule : List Action) :
    Transition.Always step ViewConsistent start schedule ↔
      Transition.Guarded step Spares start schedule := by
  refine Transition.always_iff_guarded (K := fun s => Plain s.db)
    (fun s a s' hplain hs => plain_step hplain hs) (fun s a s' hplain hi hs => ?_)
    (fun _ _ h => absurd h nofun) (fun _ _ h => absurd h.1 nofun)
  rw [viewConsistent_iff (plain_step hplain hs)]
  exact allUntouched_step_iff ((viewConsistent_iff hplain).mp hi) hs

/-! ### A message -/

def chat : ChatStartEvent where
  conversation_id := "c"
  user_id := "u1"
  bot_id := "bot-1"
  timestamp := 0

/-- A chat starts, and its first message is persisted. -/
def firstMessage : List Action :=
  [.handle (Env.healthy .noon) none (.chatStart chat),
    .handle (Env.healthy .noon) none (.incomingMessage (messageEvent "m")), .consume 0, .consume 0]

theorem run_firstMessage : (Transition.run step start firstMessage).map (fun s =>
    (s.records.length, column s.db "c" "bot_id", column s.db "c" "last_message_preview",
      (viewRow s.db "bot-1" DateTime.noon.cell "c").map fun row =>
        row.lookup "last_message_preview")) =
    some (0, some (.text "bot-1"), some (.text "hi"), some none) := by decide

/-- **The view misses a message**: all records have been consumed, and the row has no preview. -/
theorem not_view_consistent : ∃ s, Transition.run step start firstMessage = some s ∧
    s.records = [] ∧ ¬ViewConsistent s := by
  obtain ⟨s, hs, hfacts⟩ := Option.map_eq_some_iff.mp run_firstMessage
  obtain ⟨hrecords, hbot, hpreview, hview⟩ : s.records.length = 0 ∧ _ := by
    simpa only [Prod.mk.injEq] using hfacts
  refine ⟨s, hs, List.length_eq_zero_iff.mp hrecords, fun h => ?_⟩
  obtain ⟨row, hrow, hnone⟩ := Option.map_eq_some_iff.mp hview
  have hcolumn := (h "c" "bot-1" ⟨hbot, by decide⟩).columns _ row hrow "last_message_preview"
    (by simp [shared])
  rw [hnone, hpreview] at hcolumn
  exact absurd hcolumn nofun

end BotView

end TitanChat
