import TitanChat.History

/-!
# Whose conversation it is

Three places decide it. The endpoint of a socket checks the key of a bot, but not whether the
conversation is that bot's; `chat_start` inserts the bot of its socket into `conversations`, over
whatever is there; and the endpoints of the history trust the column. So a socket with another key,
or with a JWT, takes a conversation over when it sends a `chat_start`.

## Main definitions

* `Credentials`, `authenticate`: what a socket is opened with, and what it is opened as
* `botOf`, `Reads`: the owner of a conversation and its readers
* `KeepsOwner`: a later state has the owner of an earlier one, and no new readers
* `BindsOwner`: the condition on a step

## Main results

* `bot_id_of_event`: a `chat_start` has the bot of its socket
* `owner_kept_iff`: the exact statement
-/

namespace TitanChat

open WideColumn Handlers Persistence

/-! ### Sockets -/

/-- The query of a socket: `bot_token`, and the user of `token` if that is a valid JWT. -/
structure Credentials where
  bot_token : Option String
  user_id : Option String

/-- `validate_bot_api_key`. A key has at most one bot. -/
def validateBotApiKey (bots : List Bot) (api_key : String) : Option Bot :=
  bots.find? fun bot => bot.api_key = api_key && bot.is_active

/-- A socket that was accepted. -/
structure Session where
  conversation_id : String
  user_id : String
  bot_id : String

/-- The beginning of `websocket_endpoint`; `none` when the socket is closed. -/
def authenticate (bots : List Bot) (conversation_id : String) (q : Credentials) : Option Session :=
  match truthy q.bot_token with
  | some bot_token => (validateBotApiKey bots bot_token).map fun bot =>
      { conversation_id, user_id := "customer:" ++ conversation_id, bot_id := bot.id }
  | none => q.user_id.map fun user_id => { conversation_id, user_id, bot_id := "" }

/-- A frame of the socket. -/
def Session.frame (session : Session) (uuid : String) (timestamp : ℤ) (data : Dict Json) :
    Frame where
  conversation_id := session.conversation_id
  user_id := session.user_id
  bot_id := session.bot_id
  uuid := uuid
  timestamp := timestamp
  data := data

/-- A socket has the bot of a key that is active, or none. -/
theorem bot_id_of_authenticate {bots : List Bot} {c : String} {q : Credentials} {session : Session}
    (h : authenticate bots c q = some session) :
    session.bot_id = "" ∨ ∃ bot ∈ bots, bot.is_active ∧ session.bot_id = bot.id := by
  rw [authenticate] at h
  split at h
  · next bot_token _ =>
    obtain ⟨bot, hbot, rfl⟩ := Option.map_eq_some_iff.mp h
    have hfound := List.find?_some hbot
    simp only [Bool.and_eq_true] at hfound
    exact Or.inr ⟨bot, List.mem_of_find?_eq_some hbot, hfound.2, rfl⟩
  · obtain ⟨user_id, -, rfl⟩ := Option.map_eq_some_iff.mp h
    exact Or.inl rfl

theorem Frame.bot_id_of_payload {f : Frame} {payload : Dict Json} (h : f.payload = some payload) :
    payload.lookup "bot_id" = some (.str f.bot_id) := by
  rw [Frame.payload] at h
  split at h
  · split at h
    · rw [← Option.some.inj h, AList.lookup_union_right (Frame.notMem_own (by simp))]
      rfl
    · exact absurd h (by simp)
  · exact absurd h (by simp)

/-- **A `chat_start` has the bot of its socket**, whatever the client sends. -/
theorem bot_id_of_event {p : Parsing} {f : Frame} {event : ChatStartEvent}
    (h : f.event p = some (.chatStart event)) : event.bot_id = f.bot_id := by
  obtain ⟨value, harrives, h⟩ := Option.bind_eq_some_iff.mp h
  obtain ⟨raw, hraw, h⟩ := Option.bind_eq_some_iff.mp h
  obtain ⟨sent, raw', hsent, hraw', hlookup⟩ := Frame.exists_of_arrives harrives
  obtain rfl := Option.some.inj (hraw.symm.trans hraw')
  have hbot : raw.lookup "bot_id" = some (.str f.bot_id) := by
    rw [hlookup, Frame.bot_id_of_payload hsent]
    rfl
  split at h
  · next k _ =>
    cases k with
    | chatStart =>
      obtain ⟨e, he, heq⟩ := Option.map_eq_some_iff.mp h
      obtain rfl := Event.chatStart.inj heq
      simp only [ChatStartEvent.parse, Option.bind_eq_bind, Option.bind_eq_some_iff, fieldD, hbot,
        asStr] at he
      obtain ⟨_, -, _, -, _, -, _, hid, _, -, he⟩ := he
      rw [← Option.some.inj he, ← Option.some.inj hid]
    | _ => simp [Event.parse] at h
  · exact absurd h (by simp)

/-! ### Owners and readers -/

/-- `conversations.bot_id`. -/
def botOf (db : Database Table) (c : String) : Option Cell :=
  (conversationRow db c).bind (·.lookup "bot_id")

/-- `get_conversation` or `get_messages` succeeds. -/
def Reads (bots : List Bot) (admin_id : String) (db : Database Table) (c : String) : Prop :=
  (∃ data, getConversation bots admin_id db c = .ok data) ∨
    ∃ scan now bucket limit data, getMessages scan now bots admin_id db c bucket limit = .ok data

theorem reads_iff {bots : List Bot} {admin_id : String} {db : Database Table} {c : String} :
    Reads bots admin_id db c ↔ ∃ row, conversationRow db c = some row ∧
      refuses (getAdminBotIds bots admin_id) row = false := by
  constructor
  · rintro (⟨data, h⟩ | ⟨scan, now, bucket, limit, data, h⟩)
    · exact exists_row_of_ok h
    · exact exists_row_of_ok h
  · rintro ⟨row, hrow, hrefuses⟩
    exact Or.inl ⟨.ofRow row, by simp [getConversation, withAccess, hrow, hrefuses]⟩

/-- Who reads a conversation depends on its owner alone. -/
theorem reads_of_botOf {bots : List Bot} {admin_id : String} {db db' : Database Table} {c : String}
    {cell : Cell} (h : botOf db c = some cell) (h' : botOf db' c = some cell) :
    Reads bots admin_id db' c ↔ Reads bots admin_id db c := by
  obtain ⟨row, hrow, hbot⟩ := Option.bind_eq_some_iff.mp h
  obtain ⟨row', hrow', hbot'⟩ := Option.bind_eq_some_iff.mp h'
  rw [reads_iff, reads_iff, hrow, hrow']
  simp [refuses, hbot, hbot']

namespace WritePath

/-- A conversation that has a bot keeps it, and nobody else comes to read it. -/
structure KeepsOwner (c : String) (s s' : WritePath) : Prop where
  owner : ∀ b, b ≠ "" → botOf s.db c = some (.text b) → botOf s'.db c = some (.text b)
  readers : ∀ b, b ≠ "" → botOf s.db c = some (.text b) → ∀ bots admin_id,
    Reads bots admin_id s'.db c → Reads bots admin_id s.db c

/-- The readers follow the owner. -/
theorem keepsOwner_iff {c : String} {s s' : WritePath} : KeepsOwner c s s' ↔
    ∀ b, b ≠ "" → botOf s.db c = some (.text b) → botOf s'.db c = some (.text b) :=
  ⟨KeepsOwner.owner, fun h => ⟨h, fun b hb hbot _ _ hreads =>
    (reads_of_botOf hbot (h b hb hbot)).mp hreads⟩⟩

instance (c : String) : IsTrans WritePath (KeepsOwner c) :=
  ⟨fun _ _ _ h h' => keepsOwner_iff.mpr fun b hb hbot => h'.owner b hb (h.owner b hb hbot)⟩

/-- An `INSERT` has the bot that the conversation has, if it has one. -/
def InsertsOwner (db : Database Table) (c : String) : Statement Table → Prop
  | .insert _ values => ∀ b, b ≠ "" → botOf db c = some (.text b) →
      values.lookup "bot_id" = some (.text b)
  | _ => True

/-- **The condition.** A `chat_start` that is executed for a conversation with a bot is of that
bot. -/
def BindsOwner (c : String) (s : WritePath) (a : Action) : Prop :=
  ∀ stmt, s.executes a = some stmt → WritesRow c stmt → InsertsOwner s.db c stmt

variable {s s' : WritePath}

theorem botOf_of_writesRow {c : String} {stmt : Statement Table} (h : WritesRow c stmt)
    (db : Database Table) : botOf (db.apply schema stmt) c =
      (stmt.write ((conversationRow db c).getD ∅)).lookup "bot_id" :=
  lookup_of_writesRow h db "bot_id"

/-- A write that leaves the column alone. -/
theorem botOf_of_lookup_eq {c : String} {stmt : Statement Table} {db : Database Table}
    (h : WritesRow c stmt)
    (hbot : (stmt.write ((conversationRow db c).getD ∅)).lookup "bot_id" =
      ((conversationRow db c).getD ∅).lookup "bot_id") :
    botOf (db.apply schema stmt) c = botOf db c :=
  lookup_of_write_eq h hbot

/-- **One step** keeps the owner exactly under its condition. -/
theorem keepsOwner_step_iff {c : String} (hsourced : Sourced s) {a : Action}
    (hs : step s a = some s') : KeepsOwner c s s' ↔ BindsOwner c s a := by
  rw [keepsOwner_iff]
  cases ha : s.executes a with
  | none =>
    rw [db_of_executes_eq_none hs ha]
    exact iff_of_true (fun _ _ hbot => hbot) fun stmt hstmt =>
      absurd (ha.symm.trans hstmt) (by simp)
  | some stmt =>
    have hguard : BindsOwner c s a ↔ (WritesRow c stmt → InsertsOwner s.db c stmt) := by
      refine ⟨fun h => h stmt ha, fun h stmt' hstmt => ?_⟩
      obtain rfl := Option.some.inj (ha.symm.trans hstmt)
      exact h
    rw [hguard, db_of_executes hs ha]
    by_cases hw : WritesRow c stmt
    · rw [forall_prop_of_true hw]
      cases known_of_executes hsourced ha with
      | start env event =>
        have hrow : botOf (s.db.apply schema (insertConversation env event)) c =
            some (.text event.bot_id) :=
          (botOf_of_writesRow hw s.db).trans (lookup_write_insertConversation env event).1
        rw [hrow]
        exact Iff.rfl
      | assign d a =>
        rw [botOf_of_lookup_eq hw (lookup_write_assignConversation d a).1]
        exact iff_of_true (fun _ _ hbot => hbot) trivial
      | preview now p d =>
        rw [botOf_of_lookup_eq hw (lookup_write_updatePreview now p d).1]
        exact iff_of_true (fun _ _ hbot => hbot) trivial
      | close now d =>
        rw [botOf_of_lookup_eq hw (lookup_write_endConversation now d).1]
        exact iff_of_true (fun _ _ hbot => hbot) trivial
      | other hother => exact absurd hw.2.1 hother
    · rw [botOf, botOf, conversationRow_of_not_writesRow hw]
      exact iff_of_true (fun _ _ hbot => hbot) fun hw' => absurd hw' hw

/-- **Whose conversation it is**, exactly: from any state of a run to any later one a conversation
keeps its bot and gains no readers, if and only if each `chat_start` that is executed for a
conversation with a bot is of that bot. -/
theorem owner_kept_iff (c : String) (schedule : List Action) :
    Transition.Along step (KeepsOwner c) start schedule ↔
      Transition.Guarded step (BindsOwner c) start schedule :=
  Transition.along_iff_guarded (fun _ _ _ hsourced hs => hsourced.step hs)
    (fun _ _ _ hsourced hs => keepsOwner_step_iff hsourced hs) Sourced.start

/-- The bots of two tenants. -/
def tenants : List Bot :=
  [⟨"bot-1", "admin-1", "key-1", true⟩, ⟨"bot-2", "admin-2", "key-2", true⟩]

/-- A socket for `conv-1` that was opened with a key of the bot. -/
def customer (bot_id : String) : Session := ⟨"conv-1", "customer:conv-1", bot_id⟩

example :
    authenticate tenants "conv-1" ⟨some "key-1", none⟩ = some (customer "bot-1") ∧
      authenticate tenants "conv-1" ⟨some "key-2", none⟩ = some (customer "bot-2") :=
  ⟨rfl, rfl⟩

/-- A `chat_start` on this socket. -/
def chatStartOf (bot_id : String) : Action :=
  .dispatch ((customer bot_id).frame "5d7c8b1e" 1748275200
    (AList.singleton "event_type" (.str "chat_start"))) (.healthy .noon) none

theorem run_takeover :
    (Transition.run step start [chatStartOf "bot-1", .hot "conv-1"]).map
        (fun s => (botOf s.db "conv-1", (Transition.run step s
          [.hot "conv-1", .hot "conv-1", chatStartOf "bot-2", .hot "conv-1"]).map fun s' =>
            botOf s'.db "conv-1")) =
      some (some (.text "bot-1"), some (some (.text "bot-2"))) := by
  rfl

/-- The chat is started by the first tenant's socket and started again by the second's, who then has
the conversation. -/
theorem not_owner_kept :
    ¬∀ c schedule, Transition.Along step (KeepsOwner c) start schedule := by
  intro h
  obtain ⟨s, hs, heq⟩ := Option.map_eq_some_iff.mp run_takeover
  obtain ⟨hfirst, hrest⟩ := Prod.mk.inj heq
  obtain ⟨s', hs', hsecond⟩ := Option.map_eq_some_iff.mp hrest
  have hkeeps : KeepsOwner "conv-1" s s' := ((h "conv-1" (_ ++ _)).run hs).rel hs'
  have howner := hkeeps.owner "bot-1" (by simp) hfirst
  rw [hsecond] at howner
  exact absurd howner (by simp)

end WritePath

end TitanChat
