import TitanChat.ConversationRow

/-!
# Who reads the history

`get_conversation` and `get_messages` in `api/routers/conversations.py` compare the column `bot_id`
of the conversation with the bots of the admin, but only if it is set and not empty. So a
conversation without a bot is open to every admin. There are two ways to get one: a `chat_start` on
a socket that was opened with a JWT inserts the empty text, and an `UPDATE` that finds no row makes
one without a `bot_id`.

How the database lists the rows of a partition is left open: `scan` makes a list of them, of the
partition alone.

## Main definitions

* `Bot`, `getAdminBotIds`
* `getConversation`, `getMessages`: the two endpoints
* `Scoped`: an admin gets data of its own conversations, and the others make no difference
* `Tags`: the condition on a step

## Main results

* `confined_iff_tagged`, `indistinct_of_tagged`: what the column decides, in one state and in two
* `history_scoped_iff`: the exact statement
-/

namespace TitanChat

open WideColumn Handlers Persistence

abbrev Row : Type := AList fun _ : String => Cell

/-! ### Bots -/

/-- A row of `bots` in PostgreSQL. -/
structure Bot where
  id : String
  admin_id : String
  api_key : String
  is_active : Bool

/-- `_get_admin_bot_ids`. -/
def getAdminBotIds (bots : List Bot) (admin_id : String) : List String :=
  (bots.filter fun bot => bot.admin_id = admin_id).map Bot.id

/-! ### The endpoints -/

/-- A response: data, 404 or 403. -/
inductive Response (α : Type) where
  | ok (data : α)
  | notFound
  | forbidden

structure ConversationResponse where
  conversation_id : Option Cell
  bot_id : Option Cell
  user_id : Option Cell
  agent_id : Option Cell
  status : Option Cell
  started_at : Option Cell
  last_message_at : Option Cell
  last_message_preview : Option Cell

structure MessageResponse where
  message_id : Option Cell
  conversation_id : Option Cell
  sender_id : Option Cell
  sender_type : Option Cell
  content : Option Cell
  content_type : Option Cell
  created_at : Option Cell
  seq : Option Cell
  status : Option Cell

def ConversationResponse.ofRow (row : Row) : ConversationResponse where
  conversation_id := row.lookup "conversation_id"
  bot_id := row.lookup "bot_id"
  user_id := row.lookup "user_id"
  agent_id := row.lookup "agent_id"
  status := row.lookup "status"
  started_at := row.lookup "started_at"
  last_message_at := row.lookup "last_message_at"
  last_message_preview := row.lookup "last_message_preview"

def MessageResponse.ofRow (row : Row) : MessageResponse where
  message_id := row.lookup "message_id"
  conversation_id := row.lookup "conversation_id"
  sender_id := row.lookup "sender_id"
  sender_type := row.lookup "sender_type"
  content := row.lookup "content"
  content_type := row.lookup "content_type"
  created_at := row.lookup "created_at"
  seq := row.lookup "seq"
  status := row.lookup "status"

/-- `row.bot_id and row.bot_id not in bot_ids`. -/
def refuses (bot_ids : List String) (row : Row) : Bool :=
  match row.lookup "bot_id" with
  | some (.text b) => b ≠ "" && b ∉ bot_ids
  | _ => false

/-- The check at the beginning of both endpoints. -/
def withAccess {α : Type} (bots : List Bot) (admin_id : String) (db : Database Table)
    (conversation_id : String) (data : Row → α) : Response α :=
  match conversationRow db conversation_id with
  | none => .notFound
  | some row =>
    if refuses (getAdminBotIds bots admin_id) row then .forbidden else .ok (data row)

/-- `get_conversation`. -/
def getConversation (bots : List Bot) (admin_id : String) (db : Database Table)
    (conversation_id : String) : Response ConversationResponse :=
  withAccess bots admin_id db conversation_id .ofRow

/-- The rows of a partition of `messages`, by the rest of the key. -/
def messagePartition (db : Database Table) (conversation_id bucket : String) :
    List Cell → Option Row :=
  fun rest => db .messages (.text conversation_id :: .text bucket :: rest)

/-- The day buckets that `get_messages` looks at. In the first week of the year 1 the subtraction
would raise an `OverflowError`; here the days before it are left out. -/
def bucketsToQuery (bucket : Option String) (now : DateTime) : List String :=
  match truthy bucket with
  | some bucket => [bucket]
  | none => (List.range 7).filterMap fun i =>
      (DateTime.ofMicros (now.micros - i * 86400000000)).map DateTime.strftime

/-- The loop over the buckets. -/
def collectMessages (scan : (List Cell → Option Row) → List Row) (db : Database Table)
    (conversation_id : String) (limit : ℕ) : List String → List MessageResponse →
    List MessageResponse
  | [], messages => messages
  | b :: buckets, messages =>
    let msg_rows := (scan (messagePartition db conversation_id b)).take (limit - messages.length)
    let messages := messages ++ msg_rows.map .ofRow
    if limit ≤ messages.length then messages
    else collectMessages scan db conversation_id limit buckets messages

/-- `get_messages`. -/
def getMessages (scan : (List Cell → Option Row) → List Row) (now : DateTime) (bots : List Bot)
    (admin_id : String) (db : Database Table) (conversation_id : String) (bucket : Option String)
    (limit : ℕ) : Response (List MessageResponse) :=
  withAccess bots admin_id db conversation_id fun _ =>
    (collectMessages scan db conversation_id limit (bucketsToQuery bucket now) []).take limit

/-! ### The property -/

/-- The bot of the conversation is one of the admin's. -/
def OwnedBy (bots : List Bot) (admin_id : String) (db : Database Table) (c : String) : Prop :=
  ∃ row, conversationRow db c = some row ∧
    ∃ b ∈ getAdminBotIds bots admin_id, row.lookup "bot_id" = some (.text b)

/-- Data is returned of the admin's conversations only. -/
structure Confined (db : Database Table) : Prop where
  conversation : ∀ bots admin_id c data, getConversation bots admin_id db c = .ok data →
    OwnedBy bots admin_id db c
  messages : ∀ scan now bots admin_id c bucket limit data,
    getMessages scan now bots admin_id db c bucket limit = .ok data → OwnedBy bots admin_id db c

/-- The same response, or each is a 403 or a 404. -/
def Response.Alike {α : Type} (r r' : Response α) : Prop :=
  r = r' ∨ (∀ data, r ≠ .ok data) ∧ ∀ data, r' ≠ .ok data

/-- The tables differ only in rows of conversations that are not the admin's. -/
def AgreeFor (bots : List Bot) (admin_id : String) (db db' : Database Table) : Prop :=
  ∀ c, OwnedBy bots admin_id db c ∨ OwnedBy bots admin_id db' c → SameRows c db db'

/-- An admin cannot tell the tables apart, if they differ only in what is not the admin's. -/
structure Indistinct (db db' : Database Table) : Prop where
  conversation : ∀ bots admin_id, AgreeFor bots admin_id db db' → ∀ c,
    (getConversation bots admin_id db c).Alike (getConversation bots admin_id db' c)
  messages : ∀ bots admin_id, AgreeFor bots admin_id db db' → ∀ scan now c bucket limit,
    (getMessages scan now bots admin_id db c bucket limit).Alike
      (getMessages scan now bots admin_id db' c bucket limit)

/-! ### Tagged rows -/

/-- The row has a bot. -/
def TaggedRow (row : Row) : Prop := ∃ b, b ≠ "" ∧ row.lookup "bot_id" = some (.text b)

/-- Every conversation has a bot. -/
def Tagged (db : Database Table) : Prop :=
  ∀ c row, conversationRow db c = some row → TaggedRow row

section Access

variable {α : Type} {bots : List Bot} {admin_id c : String} {db db' : Database Table}
  {data : Row → α}

/-- **What the check lets through**: the row is there, and its bot, if any, is the admin's. -/
theorem exists_row_of_ok {d : α} (h : withAccess bots admin_id db c data = .ok d) :
    ∃ row, conversationRow db c = some row ∧
      refuses (getAdminBotIds bots admin_id) row = false := by
  rw [withAccess] at h
  split at h
  · exact absurd h (by simp)
  · next row hrow =>
    split at h
    · exact absurd h (by simp)
    · next hrefuses => exact ⟨row, hrow, by simpa using hrefuses⟩

/-- What is returned is read from that row. -/
theorem eq_of_ok {d : α} (h : withAccess bots admin_id db c data = .ok d) :
    ∃ row, conversationRow db c = some row ∧ d = data row := by
  obtain ⟨row, hrow, hrefuses⟩ := exists_row_of_ok h
  simp only [withAccess, hrow, hrefuses] at h
  rw [if_neg Bool.false_ne_true] at h
  exact ⟨row, hrow, (Response.ok.inj h).symm⟩

theorem eq_of_getMessages {scan : (List Cell → Option Row) → List Row} {now : DateTime}
    {bucket : Option String} {limit : ℕ} {page : List MessageResponse}
    (h : getMessages scan now bots admin_id db c bucket limit = .ok page) :
    page = (collectMessages scan db c limit (bucketsToQuery bucket now) []).take limit := by
  obtain ⟨row, -, hpage⟩ := eq_of_ok h
  exact hpage

theorem Tagged.ownedBy (htagged : Tagged db) {d : α}
    (h : withAccess bots admin_id db c data = .ok d) : OwnedBy bots admin_id db c := by
  obtain ⟨row, hrow, hrefuses⟩ := exists_row_of_ok h
  obtain ⟨b, hb, hbot⟩ := htagged c row hrow
  refine ⟨row, hrow, b, ?_, hbot⟩
  simpa [refuses, hbot, hb] using hrefuses

/-- Nobody's row is everybody's. -/
theorem ok_of_not_tagged {row : Row} (hrow : conversationRow db c = some row)
    (h : ¬TaggedRow row) : withAccess bots admin_id db c data = .ok (data row) := by
  have hrefuses : refuses (getAdminBotIds bots admin_id) row = false := by
    rw [refuses]
    split
    · next b hbot =>
      have hb : b = "" := by
        by_contra hb
        exact h ⟨b, hb, hbot⟩
      simp [hb]
    · rfl
  simp [withAccess, hrow, hrefuses]

/-- **One state.** The endpoints are confined exactly if every conversation has a bot. -/
theorem confined_iff_tagged : Confined db ↔ Tagged db := by
  constructor
  · intro h c row hrow
    by_contra hnot
    -- an admin without bots
    obtain ⟨-, -, b, hb, -⟩ := h.conversation [] "" c _ (ok_of_not_tagged hrow hnot)
    exact absurd hb (by simp [getAdminBotIds])
  · exact fun h => ⟨fun _ _ _ _ => h.ownedBy, fun _ _ _ _ _ _ _ _ => h.ownedBy⟩

/-- The row of a conversation is one of its rows. -/
theorem conversationRow_of_sameRows (h : SameRows c db db') :
    conversationRow db' c = conversationRow db c :=
  h .conversations [.text c] rfl

theorem messagePartition_of_sameRows (h : SameRows c db db') (bucket : String) :
    messagePartition db' c bucket = messagePartition db c bucket := by
  funext rest
  exact h .messages _ rfl

theorem collectMessages_of_sameRows (h : SameRows c db db')
    (scan : (List Cell → Option Row) → List Row) (limit : ℕ) (buckets : List String)
    (messages : List MessageResponse) :
    collectMessages scan db' c limit buckets messages =
      collectMessages scan db c limit buckets messages := by
  induction buckets generalizing messages with
  | nil => rfl
  | cons b buckets ih =>
    simp only [collectMessages, messagePartition_of_sameRows h, ih]

theorem alike_withAccess {data' : Row → α} (htagged : Tagged db) (htagged' : Tagged db')
    (hagree : AgreeFor bots admin_id db db') (hdata : SameRows c db db' → data = data') :
    (withAccess bots admin_id db c data).Alike (withAccess bots admin_id db' c data') := by
  by_cases howned : OwnedBy bots admin_id db c ∨ OwnedBy bots admin_id db' c
  · have hsame : SameRows c db db' := hagree c howned
    refine Or.inl ?_
    rw [withAccess, withAccess, conversationRow_of_sameRows hsame, hdata hsame]
  · rw [not_or] at howned
    exact Or.inr ⟨fun _ hok => howned.1 (htagged.ownedBy hok),
      fun _ hok => howned.2 (htagged'.ownedBy hok)⟩

/-- **Two states.** If every conversation has a bot, what is not the admin's makes no difference. -/
theorem indistinct_of_tagged (htagged : Tagged db) (htagged' : Tagged db') : Indistinct db db' where
  conversation _ _ hagree _ := alike_withAccess htagged htagged' hagree fun _ => rfl
  messages _ _ hagree scan _ _ _ limit :=
    alike_withAccess htagged htagged' hagree fun hsame => by
      funext _
      rw [collectMessages_of_sameRows hsame]

end Access

/-! ### Steps -/

namespace WritePath

/-- An `INSERT` has a bot, and an `UPDATE` finds the row. -/
def TagsRow (db : Database Table) (c : String) : Statement Table → Prop
  | .insert _ values => values.lookup "bot_id" ≠ some (.text "")
  | _ => (conversationRow db c).isSome

/-- **The condition.** An `INSERT` into `conversations` has a bot, and an `UPDATE` finds its row. -/
def Tags (s : WritePath) (a : Action) : Prop :=
  ∀ stmt c, s.executes a = some stmt → WritesRow c stmt → TagsRow s.db c stmt

variable {s s' : WritePath}

theorem taggedRow_getD {db : Database Table} (h : Tagged db) {c : String} {row : Row}
    (hbot : row.lookup "bot_id" = ((conversationRow db c).getD ∅).lookup "bot_id") :
    TaggedRow row ↔ (conversationRow db c).isSome := by
  rw [TaggedRow, hbot]
  cases hrow : conversationRow db c with
  | none => simp
  | some old => exact iff_of_true (h c old hrow) rfl

/-- **One statement.** -/
theorem tagged_apply_iff {db : Database Table} (h : Tagged db) {stmt : Statement Table}
    (hknown : Known stmt) :
    Tagged (db.apply schema stmt) ↔ ∀ c, WritesRow c stmt → TagsRow db c stmt := by
  have hall : Tagged (db.apply schema stmt) ↔ ∀ c, WritesRow c stmt →
      TaggedRow (stmt.write ((conversationRow db c).getD ∅)) := by
    constructor
    · exact fun h' c hw => h' c _ (conversationRow_of_writesRow hw db)
    · intro h' c row hrow
      by_cases hw : WritesRow c stmt
      · rw [conversationRow_of_writesRow hw] at hrow
        exact Option.some.inj hrow ▸ h' c hw
      · rw [conversationRow_of_not_writesRow hw] at hrow
        exact h c row hrow
  rw [hall]
  refine forall₂_congr fun c hw => ?_
  cases hknown with
  | start env event =>
    rw [TaggedRow, (lookup_write_insertConversation env event).1]
    simp [insertConversation, TagsRow, List.lookup_cons]
  | assign d a => exact taggedRow_getD h (lookup_write_assignConversation d a).1
  | preview now p d => exact taggedRow_getD h (lookup_write_updatePreview now p d).1
  | close now d => exact taggedRow_getD h (lookup_write_endConversation now d).1
  | other hother => exact absurd hw.2.1 hother

/-- **One step** keeps the rows tagged exactly under its condition. -/
theorem tagged_step_iff (hsourced : Sourced s) (h : Tagged s.db) {a : Action}
    (hs : step s a = some s') : Tagged s'.db ↔ Tags s a := by
  cases ha : s.executes a with
  | none =>
    rw [db_of_executes_eq_none hs ha]
    exact iff_of_true h fun stmt c hstmt => absurd (ha.symm.trans hstmt) (by simp)
  | some stmt =>
    rw [db_of_executes hs ha, tagged_apply_iff h (known_of_executes hsourced ha)]
    constructor
    · intro hw stmt' c hstmt
      obtain rfl := Option.some.inj (ha.symm.trans hstmt)
      exact hw c
    · exact fun htags c => htags stmt c ha

/-! ### Whole runs -/

/-- The state is reached by a run whose steps all meet the condition. -/
def ReachedTagging (s : WritePath) : Prop :=
  ∃ schedule, Transition.Guarded step Tags start schedule ∧
    Transition.run step start schedule = some s

/-- **Tenant isolation.** Data is returned of the admin's conversations only, and the rows of the
other conversations make no difference to an admin. -/
structure Scoped (s : WritePath) : Prop where
  confined : Confined s.db
  indistinct : ∀ s', ReachedTagging s' → Indistinct s.db s'.db

theorem tagged_of_guarded {schedule : List Action}
    (h : Transition.Guarded step Tags start schedule) :
    Transition.Always step (fun s => Tagged s.db) start schedule :=
  (Transition.always_iff_guarded (fun _ _ _ hsourced hs => hsourced.step hs)
    (fun _ _ _ hsourced htagged hs => tagged_step_iff hsourced htagged hs) Sourced.start
    (fun c row hrow => absurd hrow (by simp [start, conversationRow, Database.empty]))).mpr h

theorem ReachedTagging.tagged (h : ReachedTagging s) : Tagged s.db := by
  obtain ⟨schedule, hguarded, hrun⟩ := h
  exact (tagged_of_guarded hguarded).run hrun

/-- **Tenant isolation**, exactly: it holds in every state of a run if and only if each `INSERT`
into `conversations` has a bot and each `UPDATE` finds its row. -/
theorem history_scoped_iff (schedule : List Action) :
    Transition.Always step Scoped start schedule ↔
      Transition.Guarded step Tags start schedule := by
  refine ⟨fun h => ?_, fun h => ?_⟩
  · refine (Transition.always_iff_guarded (fun _ _ _ hsourced hs => hsourced.step hs)
      (fun _ _ _ hsourced htagged hs => tagged_step_iff hsourced htagged hs) Sourced.start
      (fun c row hrow => absurd hrow (by simp [start, conversationRow, Database.empty]))).mp ?_
    exact h.imp fun s hscoped => confined_iff_tagged.mp hscoped.confined
  · exact (tagged_of_guarded h).imp fun s htagged =>
      ⟨confined_iff_tagged.mpr htagged, fun s' hs' => indistinct_of_tagged htagged hs'.tagged⟩

/-- A `chat_start` on a socket that was opened with a JWT. -/
def jwtStart : Frame where
  conversation_id := "conv-1"
  user_id := "agent-7"
  bot_id := ""
  uuid := "5d7c8b1e"
  timestamp := 1748275200
  data := AList.singleton "event_type" (.str "chat_start")

theorem run_jwtStart :
    (Transition.run step start [.dispatch jwtStart (.healthy .noon) none, .hot "conv-1"]).map
      (fun s => (conversationRow s.db "conv-1").map (·.lookup "bot_id")) =
        some (some (some (.text ""))) := by
  rfl

/-- The conversation is then open to an admin without bots. -/
theorem not_history_scoped :
    ¬∀ schedule, Transition.Always step Scoped start schedule := by
  intro h
  obtain ⟨s, hs, hrow⟩ := Option.map_eq_some_iff.mp run_jwtStart
  obtain ⟨row, hrow, hbot⟩ := Option.map_eq_some_iff.mp hrow
  have hscoped : Scoped s := (h _).run hs
  obtain ⟨b, hb, hbot'⟩ := confined_iff_tagged.mp hscoped.confined "conv-1" row hrow
  rw [hbot] at hbot'
  exact hb (Cell.text.inj (Option.some.inj hbot')).symm

end WritePath

end TitanChat
