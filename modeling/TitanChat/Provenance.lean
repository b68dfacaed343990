import TitanChat.Attribution
import TitanChat.GatewayAuth
import TitanChat.TenantIsolation

/-!
# Who is accountable for a row

Here all parts run together: the API with its accounts, the sockets of all gateways, the records on
`chat-inbound`, the handlers and the worker. A socket outlives the bot or the account that opened
it, a record waits for as long as it takes and may come again, and in the meantime keys are
replaced, accounts are switched off and tokens expire.

Every name in the tables is still that of somebody who has shown a key or a token, to a gateway, at
the time when the socket was opened; and what an admin gets to read was started with the key of one
of the admin's own bots, or by nobody's.

## Main definitions

* `Deployment`, `Deployment.step`
* `Opening`, `Opening.Customer`, `Opening.Holder`: who has opened a socket, and with what
* `Unforged`: a token that PyJWT accepts was issued by the API
* `Accountable`, `Discloses`: the properties

## Main results

* `accountable_of_run`: in every run
* `disclosed_of_run`: every response to a request about conversations
-/

namespace TitanChat

open WideColumn Handlers Tables

/-! ### The system -/

/-- A socket that was opened: by what query, as whose, and the API at that time. -/
structure Opening (Token : Type) where
  api : Api Token
  query : Query Token
  session : Session

/-- The API, the sockets that are open, the frames on `chat-inbound` and the paths to the database.
The last field is the record of the sockets that have been opened. -/
structure Deployment (Token : Type) where
  api : Api Token
  sockets : ℕ → Option Session
  inbound : List Frame
  path : WritePath
  opened : List (Opening Token)

inductive DeploymentStep (Token : Type) where
  | api (x : ApiStep Token)
  | accept (i : ℕ) (conversation_id : String) (q : Query Token)
  | close (i : ℕ)
  /-- A frame is received on a socket, and its event is published. -/
  | publish (i : ℕ) (uuid : String) (timestamp : ℤ) (data : Dict Json)
  /-- A record of `chat-inbound` is dispatched, for the first time or again. -/
  | deliver (n : ℕ) (env : Env) (agent_id : Option String)
  /-- The handlers and the worker go on. -/
  | path (a : WritePath.Action)

namespace Deployment

/-- No account, no socket and no row. -/
def empty {Token : Type} (now : ℤ) : Deployment Token where
  api := .empty now
  sockets _ := none
  inbound := []
  path := .start
  opened := []

section System

variable {Token : Type} (C : Crypto Token) (invalid : Token → String) (P : Columns)

def step (s : Deployment Token) : DeploymentStep Token → Option (Deployment Token)
  | .api x => (Api.step C P s.api x).map fun api => { s with api }
  | .accept i conversation_id q =>
    if (s.sockets i).isSome then none
    else match openSocket C invalid s.api.now s.api.site.db conversation_id q with
      | .error _ => none
      | .ok session => some { s with
          sockets := Function.update s.sockets i (some session)
          opened := s.opened ++ [⟨s.api, q, session⟩] }
  | .close i => some { s with sockets := Function.update s.sockets i none }
  | .publish i uuid timestamp data =>
    (s.sockets i).bind fun session =>
      let f := session.frame uuid timestamp data
      f.arrives.map fun _ => { s with inbound := s.inbound ++ [f] }
  | .deliver n env agent_id =>
    s.inbound[n]?.bind fun f =>
      (WritePath.step s.path (.dispatch f env agent_id)).map fun path => { s with path }
  | .path a =>
    match a.frame with
    | some _ => none
    | none => (WritePath.step s.path a).map fun path => { s with path }

/-- PyJWT accepts no token that the API has not issued. -/
def Unforged (s : Deployment Token) : DeploymentStep Token → Prop
  | .accept _ _ q => ∀ token claims, q.token = some token →
      C.decode s.api.now token = .ok claims → ∃ account, (account, token) ∈ s.api.issued
  | _ => True

end System

end Deployment

/-! ### Who has opened a socket -/

namespace Opening

variable {Token : Type}

/-- The frame was received on this socket. -/
def Sends (o : Opening Token) (f : Frame) : Prop :=
  ∃ uuid timestamp data, f = o.session.frame uuid timestamp data

/-- A customer of the bot, which was active, and whose key was in the query. -/
structure Customer (o : Opening Token) (bot : AccountBot) : Prop where
  api_key : truthy o.query.bot_token = some bot.api_key
  stored : o.api.site.db.bots.lookup bot.id = some bot
  active : bot.is_active = true
  user_id : o.session.user_id = "customer:" ++ o.session.conversation_id
  bot_id : o.session.bot_id = bot.id.str

/-- The holder of a token that was issued to the account and had not expired. -/
structure Holder (C : Crypto Token) (o : Opening Token) (account : Account) : Prop where
  token : ∃ token claims, o.query.token = some token ∧ (account, token) ∈ o.api.issued ∧
    C.decode o.api.now token = .ok claims
  user_id : o.session.user_id = account.id.str
  bot_id : o.session.bot_id = ""

/-- A socket is opened with a key or with a token. -/
def Shown (C : Crypto Token) (o : Opening Token) : Prop :=
  (∃ bot, o.Customer bot) ∨ ∃ account, o.Holder C account

/-- What is decoded is what was encoded, so the claims are those of the account. -/
theorem describes_of_issued {C : Crypto Token} {s : Api Token} (hissued : s.Sound C)
    {account : Account} {token : Token} (hmem : (account, token) ∈ s.issued) {now : ℤ}
    {claims : Claims} (hdecode : C.decode now token = .ok claims) :
    ∃ t, Describes account t claims ∧ account.tenant s.site.db = some t := by
  obtain ⟨t, claims', rfl, -, hdescribes, htenant⟩ := hissued.issued account token hmem
  have hencode := C.decode_encode now claims'
  rw [hdecode] at hencode
  split at hencode
  · cases hencode
  · split at hencode
    · cases hencode
    · exact ⟨t, Except.ok.inj hencode ▸ hdescribes, htenant⟩

/-- **Who opens a socket**, in a sound state of the API. -/
theorem shown_of_openSocket {C : Crypto Token} {invalid : Token → String} {s : Api Token}
    (hs : Integrity s.site) (hissued : s.Sound C) {c : String} {q : Query Token} {session : Session}
    (hunforged : ∀ token claims, q.token = some token → C.decode s.now token = .ok claims →
      ∃ account, (account, token) ∈ s.issued)
    (h : openSocket C invalid s.now s.site.db c q = .ok session) :
    Shown C (⟨s, q, session⟩ : Opening Token) := by
  obtain ⟨bot, hkey, hbot, hactive, rfl⟩ | ⟨token, claims, htoken, hdecode, rfl⟩ :=
    openSocket_eq_ok hs h
  · exact Or.inl ⟨bot, hkey, hbot, hactive, rfl, rfl⟩
  · obtain ⟨account, hmem⟩ := hunforged token claims htoken hdecode
    obtain ⟨t, hdescribes, -⟩ := describes_of_issued hissued hmem hdecode
    exact Or.inr ⟨account, ⟨token, claims, htoken, hmem, hdecode⟩, hdescribes.user_id, rfl⟩

/-- An identifier is not the name of a customer. -/
theorem str_ne_customer (id : Uuid) (c : String) : id.str ≠ "customer:" ++ c := by
  intro h
  have hcanonical := id.canonical
  rw [h, isCanonical, decide_eq_true_eq, String.toList_append, List.map_append] at hcanonical
  have hsecond := congrArg (fun l : List Char => l[1]?) hcanonical
  rw [List.getElem?_append_left (by decide)] at hsecond
  exact absurd hsecond (by decide)

end Opening

/-! ### What stays of a bot -/

/-- A bot is never removed, and stays with its admin. -/
theorem owner_of_write {s : Site} {c : Caller} {e : Edit} (he : e.Allowed s c) {id : Uuid}
    {bot : AccountBot} (h : s.db.bots.lookup id = some bot) :
    ∃ row, (e.write s).db.bots.lookup id = some row ∧ row.admin_id = bot.admin_id := by
  have hinsert (new : AccountBot) {old : AccountBot} (hold : s.db.bots.lookup old.id = some old)
      (hid : new.id = old.id) (howner : new.admin_id = old.admin_id)
      (redis : String → Option String) :
      ∃ row, (Edit.write s (.bot new redis)).db.bots.lookup id = some row ∧
        row.admin_id = bot.admin_id := by
    by_cases hsame : id = old.id
    · rw [hsame, hold] at h
      obtain rfl := Option.some.inj h
      exact ⟨new, by rw [hsame, ← hid]; exact AList.lookup_insert _, howner⟩
    · exact ⟨bot, (AList.lookup_insert_ne (hid ▸ hsame)).trans h, rfl⟩
  cases he with
  | nothing | register | switch | createAgent | changeAgent | cacheOnly | invalidateOnly =>
    exact ⟨bot, h, rfl⟩
  | createBot by_ row hby hadmin howner hnew hkey hgenerated =>
    have hne : id ≠ row.id := fun heq => hnew (AList.lookup_isSome.mp (by rw [← heq, h]; rfl))
    exact ⟨bot, (AList.lookup_insert_ne hne).trans h, rfl⟩
  | changeBot by_ old name config is_active redis hby howner hold hredis =>
    exact hinsert { old with name, config, is_active } hold rfl rfl redis
  | regenerateBotKey by_ old key hby howner hold hkey hgenerated =>
    exact hinsert { old with api_key := key } hold rfl rfl s.redis

namespace Deployment

variable {Token : Type} {C : Crypto Token} {invalid : Token → String} {P : Columns}
  {s s' : Deployment Token}

/-! ### What every step keeps -/

/-- The frame was received on a socket that has been opened. -/
def Sent (s : Deployment Token) (f : Frame) : Prop := ∃ o ∈ s.opened, o.Sends f

/-- What holds in every state. -/
structure Sound (C : Crypto Token) (s : Deployment Token) : Prop where
  integrity : Integrity s.api.site
  issued : s.api.Sound C
  shown : ∀ o ∈ s.opened, o.Shown C
  /-- The bots that have customers are still there. -/
  kept : ∀ o ∈ s.opened, ∀ bot, o.Customer bot →
    ∃ row, s.api.site.db.bots.lookup bot.id = some row ∧ row.admin_id = bot.admin_id
  sockets : ∀ i session, s.sockets i = some session → ∃ o ∈ s.opened, o.session = session
  inbound : ∀ f ∈ s.inbound, s.Sent f
  path : s.path.Caused s.Sent

theorem sound_empty (now : ℤ) : Sound C (empty now) where
  integrity := integrity_empty
  issued := ⟨⟨nofun, nofun⟩, nofun⟩
  shown _ h := absurd h List.not_mem_nil
  kept _ h := absurd h List.not_mem_nil
  sockets _ _ h := absurd h nofun
  inbound _ h := absurd h List.not_mem_nil
  path := WritePath.caused_start

/-- The requests change none of the rest. -/
theorem Sound.api (h : Sound C s) {x : ApiStep Token} {api : Api Token}
    (hx : Api.step C P s.api x = some api) : Sound C { s with api } where
  integrity := h.integrity.step hx
  issued := h.issued.step hx
  shown := h.shown
  kept o ho bot hbot := by
    obtain ⟨row, hrow, howner⟩ := h.kept o ho bot hbot
    obtain ⟨e, he, heq⟩ := edits_of_step h.integrity hx
    obtain ⟨row', hrow', howner'⟩ := owner_of_write he hrow
    exact ⟨row', heq ▸ hrow', howner'.trans howner⟩
  sockets := h.sockets
  inbound := h.inbound
  path := h.path

/-- One more socket is opened. -/
theorem Sound.accept (h : Sound C s) {i : ℕ} {q : Query Token} {session : Session}
    (hshown : Opening.Shown C (⟨s.api, q, session⟩ : Opening Token)) :
    Sound C { s with
      sockets := Function.update s.sockets i (some session)
      opened := s.opened ++ [⟨s.api, q, session⟩] } where
  integrity := h.integrity
  issued := h.issued
  shown o ho := by
    obtain ho | ho := List.mem_append.mp ho
    · exact h.shown o ho
    · exact List.mem_singleton.mp ho ▸ hshown
  kept o ho bot hbot := by
    obtain ho | ho := List.mem_append.mp ho
    · exact h.kept o ho bot hbot
    · obtain rfl := List.mem_singleton.mp ho
      exact ⟨bot, hbot.stored, rfl⟩
  sockets j session' hsocket := by
    dsimp only at hsocket
    by_cases hj : j = i
    · rw [hj, Function.update_self] at hsocket
      exact ⟨_, List.mem_append_right _ List.mem_cons_self, Option.some.inj hsocket⟩
    · rw [Function.update_of_ne hj] at hsocket
      obtain ⟨o, ho, hsession⟩ := h.sockets j session' hsocket
      exact ⟨o, List.mem_append_left _ ho, hsession⟩
  inbound f hf := by
    obtain ⟨o, ho, hsends⟩ := h.inbound f hf
    exact ⟨o, List.mem_append_left _ ho, hsends⟩
  path := h.path.mono fun f hf => by
    obtain ⟨o, ho, hsends⟩ := hf
    exact ⟨o, List.mem_append_left _ ho, hsends⟩

theorem Sound.close (h : Sound C s) (i : ℕ) :
    Sound C { s with sockets := Function.update s.sockets i none } where
  integrity := h.integrity
  issued := h.issued
  shown := h.shown
  kept := h.kept
  sockets j session hsocket := by
    dsimp only at hsocket
    by_cases hj : j = i
    · rw [hj, Function.update_self] at hsocket
      cases hsocket
    · rw [Function.update_of_ne hj] at hsocket
      exact h.sockets j session hsocket
  inbound := h.inbound
  path := h.path

/-- A frame is of the socket that it was received on. -/
theorem Sound.publish (h : Sound C s) {i : ℕ} {session : Session}
    (hsocket : s.sockets i = some session) (uuid : String) (timestamp : ℤ) (data : Dict Json) :
    Sound C { s with inbound := s.inbound ++ [session.frame uuid timestamp data] } where
  integrity := h.integrity
  issued := h.issued
  shown := h.shown
  kept := h.kept
  sockets := h.sockets
  inbound f hf := by
    obtain hf | hf := List.mem_append.mp hf
    · exact h.inbound f hf
    · obtain rfl := List.mem_singleton.mp hf
      obtain ⟨o, ho, rfl⟩ := h.sockets i session hsocket
      exact ⟨o, ho, uuid, timestamp, data, rfl⟩
  path := h.path

/-- The handlers and the worker change none of the rest. -/
theorem Sound.path_step (h : Sound C s) {a : WritePath.Action} {path : WritePath}
    (ha : ∀ f, a.frame = some f → s.Sent f) (hx : WritePath.step s.path a = some path) :
    Sound C { s with path } :=
  ⟨h.integrity, h.issued, h.shown, h.kept, h.sockets, h.inbound, h.path.step ha hx⟩

/-- **One step** keeps the system sound, if it brings no forged token. -/
theorem Sound.step (h : Sound C s) {x : DeploymentStep Token} (hx : Unforged C s x)
    (hs : Deployment.step C invalid P s x = some s') : Sound C s' := by
  cases x with
  | api x =>
    obtain ⟨api, hapi, rfl⟩ := Option.map_eq_some_iff.mp hs
    exact h.api hapi
  | accept i c q =>
    rw [Deployment.step] at hs
    split at hs
    · cases hs
    · split at hs
      · cases hs
      · next session hsession =>
        obtain rfl := Option.some.inj hs
        exact h.accept (Opening.shown_of_openSocket h.integrity h.issued hx hsession)
  | close i =>
    obtain rfl := Option.some.inj hs
    exact h.close i
  | publish i uuid timestamp data =>
    obtain ⟨session, hsocket, hs⟩ := Option.bind_eq_some_iff.mp hs
    obtain ⟨value, -, rfl⟩ := Option.map_eq_some_iff.mp hs
    exact h.publish hsocket uuid timestamp data
  | deliver n env agent_id =>
    obtain ⟨f, hf, hs⟩ := Option.bind_eq_some_iff.mp hs
    obtain ⟨path, hpath, rfl⟩ := Option.map_eq_some_iff.mp hs
    refine h.path_step (fun g hg => ?_) hpath
    obtain rfl := Option.some.inj hg
    exact h.inbound f (List.mem_of_getElem? hf)
  | path a =>
    rw [Deployment.step] at hs
    split at hs
    · cases hs
    · next hframe =>
      obtain ⟨path, hpath, rfl⟩ := Option.map_eq_some_iff.mp hs
      exact h.path_step (fun f hf => absurd (hframe.symm.trans hf) nofun) hpath

theorem sound_of_run {now : ℤ} {schedule : List (DeploymentStep Token)}
    (hunforged : Transition.Guarded (step C invalid P) (Unforged C) (empty now) schedule)
    (hr : Transition.run (step C invalid P) (empty now) schedule = some s) : Sound C s :=
  (Transition.always_of_guarded (fun _ _ _ h hx hs => h.step hx hs) (sound_empty now)
    hunforged).run hr

/-! ### Who is accountable -/

/-- **Somebody is accountable for every row.** Nobody writes in the name of an account without a
token of that account, nor in the name of the customer of a conversation without the key of a bot
and a socket for that conversation. -/
structure Accountable (C : Crypto Token) (s : Deployment Token) : Prop where
  rows : Attributed (fun f => ∃ o ∈ s.opened, o.Shown C ∧ o.Sends f) s.path.db
  account : ∀ (id : Uuid) key row, s.path.db .messages key = some row →
    row.lookup "sender_id" = some (.text id.str) →
      ∃ o ∈ s.opened, ∃ account, account.id = id ∧ o.Holder C account
  customer : ∀ c key row, s.path.db .messages key = some row →
    row.lookup "sender_id" = some (.text ("customer:" ++ c)) →
      ∃ o ∈ s.opened, o.session.conversation_id = c ∧ ∃ bot, o.Customer bot

/-- The sender of a message is the user of a socket. -/
theorem Sound.exists_sender (h : Sound C s) {key : List Cell} {row : Row}
    (hrow : s.path.db .messages key = some row) {sender : String}
    (hsender : row.lookup "sender_id" = some (.text sender)) :
    ∃ o ∈ s.opened, o.Shown C ∧ o.session.user_id = sender := by
  obtain ⟨f, p, event, ⟨o, ho, uuid, timestamp, data, rfl⟩, -, -, hshown⟩ :=
    h.path.rows.messages key row hrow
  refine ⟨o, ho, h.shown o ho, ?_⟩
  have huser : row.lookup "sender_id" = some (.text o.session.user_id) :=
    congrArg MessageResponse.sender_id hshown
  exact Cell.text.inj (Option.some.inj (huser.symm.trans hsender))

/-- **In every run**, whatever happens to sockets, accounts and records in between. -/
theorem accountable_of_run {now : ℤ} {schedule : List (DeploymentStep Token)}
    (hunforged : Transition.Guarded (step C invalid P) (Unforged C) (empty now) schedule)
    (hr : Transition.run (step C invalid P) (empty now) schedule = some s) :
    s.Accountable C := by
  have h : Sound C s := sound_of_run hunforged hr
  constructor
  · refine h.path.rows.mono fun f hf => ?_
    obtain ⟨o, ho, hsends⟩ := hf
    exact ⟨o, ho, h.shown o ho, hsends⟩
  · intro id key row hrow hsender
    obtain ⟨o, ho, ⟨bot, hbot⟩ | ⟨account, haccount⟩, huser⟩ := h.exists_sender hrow hsender
    · exact absurd (huser.symm.trans hbot.user_id) (Opening.str_ne_customer id _)
    · exact ⟨o, ho, account, Uuid.str_injective (haccount.user_id.symm.trans huser), haccount⟩
  · intro c key row hrow hsender
    obtain ⟨o, ho, ⟨bot, hbot⟩ | ⟨account, haccount⟩, huser⟩ := h.exists_sender hrow hsender
    · exact ⟨o, ho, (String.append_right_inj _).mp (hbot.user_id.symm.trans huser), bot, hbot⟩
    · exact absurd (haccount.user_id.symm.trans huser) (Opening.str_ne_customer account.id c)

/-- Nobody opens a socket with a token. -/
def tokenless (x : DeploymentStep Token) : Bool :=
  match x with
  | .accept _ _ q => q.token.isNone
  | _ => true

theorem guarded_of_tokenless {schedule : List (DeploymentStep Token)}
    (h : schedule.all tokenless = true) :
    Transition.Guarded (step C invalid P) (Unforged C) s schedule := by
  refine Transition.guarded_of_forall (fun x hx s => ?_) s
  have hnone : tokenless x = true := List.all_eq_true.mp h x hx
  cases x with
  | accept i c q =>
    intro token claims htoken
    rw [tokenless, htoken] at hnone
    exact absurd hnone Bool.false_ne_true
  | _ => trivial

/-- A customer says hello and leaves, and the bot is removed before anything is stored. The record
of the message is delivered twice. -/
def greeting : List (DeploymentStep Claims) :=
  settingUp.map .api ++
  [.accept 0 "conv-1" ⟨some "key", none⟩,
    .publish 0 "5d7c8b1e" 1748275200 (AList.singleton "event_type" (.str "chat_start")),
    .publish 0 "0b54d3e2" 1748275201 (AList.singleton "message" (.str "Hello")),
    .close 0,
    .api (sampleRequest (.deleteBot sampleBotId)),
    .deliver 0 (.healthy .noon) none] ++
  List.replicate 3 (.path (.hot "conv-1")) ++
  [.deliver 1 (.healthy .noon) none, .path (.hot "conv-1"), .path (.take 1 true)] ++
  List.replicate 4 (.path .write) ++
  [.path (.take 1 false)] ++ List.replicate 4 (.path .write) ++
  [.path (.take 0 false)] ++ List.replicate 1 (.path .write)

/-- The run, to its end. -/
def greeted : Option (Deployment Claims) :=
  Transition.run (step plainCrypto (fun _ => "Invalid token") anyColumns) (empty 0) greeting

theorem accountable_of_run_greeting : ∃ s, greeted = some s ∧
    (∃ row, s.path.db .messages [.text "conv-1", .text "20250526", .timestamp 1748275201000,
      .text "0b54d3e2"] = some row ∧
        row.lookup "sender_id" = some (.text "customer:conv-1")) ∧
    s.Accountable plainCrypto := by
  have hr : greeted = some (greeted.get rfl) := (Option.some_get _).symm
  exact ⟨_, hr, ⟨_, rfl, rfl⟩, accountable_of_run (guarded_of_tokenless rfl) hr⟩

/-! ### What an admin gets to read -/

/-- A `chat_start` for the conversation was received from a customer of one of the tenant's bots. -/
def StartedFor (s : Deployment Token) (t : Uuid) (c : String) : Prop :=
  ∃ o ∈ s.opened, ∃ bot, o.Customer bot ∧ bot.admin_id = t ∧ ∃ f, o.Sends f ∧ f.Starts c

/-- What a response has is the tenant's. A conversation without a bot is everybody's, but it is not
listed. -/
def Discloses (s : Deployment Token) (t : Uuid) (data : Data) : ConversationRoute → Prop
  | .listConversations _ _ _ => ∃ cs, data = .conversations cs ∧
      ∀ conv ∈ cs, ∃ c, conv.conversation_id = some (.text c) ∧ s.StartedFor t c
  | .getConversation c | .getMessages c _ _ =>
    (∀ b, botOf s.path.db c = some (.text b) → b = "") ∨ s.StartedFor t c

theorem exists_of_mem_getAdminBotIds {s : Site} (hs : Integrity s) {t : Uuid} {b : String}
    (h : b ∈ getAdminBotIds s.db.botList t.str) :
    ∃ row, s.db.bots.lookup row.id = some row ∧ row.admin_id = t ∧ row.id.str = b := by
  rw [getAdminBotIds_botList] at h
  obtain ⟨row, hrow, rfl⟩ := List.mem_map.mp h
  obtain ⟨hmem, howner⟩ := List.mem_filter.mp hrow
  obtain ⟨id, hid⟩ := mem_map_entries.mp hmem
  exact ⟨row, hs.botId id row hid ▸ hid, of_decide_eq_true howner, rfl⟩

/-- **A bot of the tenant's** on a frame has been there all along, and its key was shown. -/
theorem Sound.startedFor (h : Sound C s) {f : Frame} (hf : s.Sent f) {c : String}
    (hstarts : f.Starts c) {t : Uuid}
    (hbot : f.bot_id ∈ getAdminBotIds s.api.site.db.botList t.str) : s.StartedFor t c := by
  obtain ⟨row, hrow, howner, hid⟩ := exists_of_mem_getAdminBotIds h.integrity hbot
  obtain ⟨o, ho, hsends⟩ := hf
  have hsame : f.bot_id = o.session.bot_id := by
    obtain ⟨uuid, timestamp, data, rfl⟩ := hsends
    rfl
  obtain ⟨bot, hcustomer⟩ | ⟨account, haccount⟩ := h.shown o ho
  · have hids : bot.id = row.id :=
      Uuid.str_injective (hcustomer.bot_id.symm.trans (hsame.symm.trans hid.symm))
    obtain ⟨row', hrow', howner'⟩ := h.kept o ho bot hcustomer
    rw [hids, hrow] at hrow'
    obtain rfl := Option.some.inj hrow'
    exact ⟨o, ho, bot, hcustomer, howner'.symm.trans howner, f, hsends, hstarts⟩
  · exact absurd (hid.trans (hsame.trans haccount.bot_id)) row.id.str_ne_empty

/-- A conversation that the check lets a tenant see. -/
theorem Sound.of_reads (h : Sound C s) {t : Uuid} {c : String}
    (hreads : Reads s.api.site.db.botList t.str s.path.db c) :
    (∀ b, botOf s.path.db c = some (.text b) → b = "") ∨ s.StartedFor t c := by
  obtain ⟨row, hrow, hrefuses⟩ := reads_iff.mp hreads
  obtain ⟨-, hnone⟩ | ⟨f, d, hf, hstarts, hkey, hnames⟩ := h.path.rows.conversations _ row hrow
  · refine Or.inl fun b hb => ?_
    rw [botOf, hrow, Option.bind_some, hnone] at hb
    cases hb
  · obtain rfl : c = d := Cell.text.inj (List.singleton_inj.mp hkey)
    by_cases hbot : f.bot_id = ""
    · refine Or.inl fun b hb => ?_
      rw [botOf, hrow, Option.bind_some, hnames.bot_id, hbot] at hb
      exact (Cell.text.inj (Option.some.inj hb)).symm
    · refine Or.inr (h.startedFor hf hstarts ?_)
      rw [refuses, hnames.bot_id] at hrefuses
      simpa [hbot] using hrefuses

/-- What is listed is in the partition of one of the tenant's bots. -/
theorem exists_of_listed {scan : (List Cell → Option Row) → List Row} {bots : List Bot}
    {admin_id : String} {db : Database Table} {status bot_id : Option String} {limit : ℕ}
    {data : List ConversationResponse}
    (h : listConversations scan bots admin_id db status bot_id limit = .ok data)
    {conv : ConversationResponse} (hconv : conv ∈ data) :
    ∃ b ∈ getAdminBotIds bots admin_id, ∃ row ∈ scan (botPartition db b),
      conv = ConversationResponse.ofRow row := by
  have hcollect {ids : List String}
      (hmem : conv ∈ (newestFirst (collectConversations scan db limit ids)).take limit) :
      ∃ b ∈ ids, ∃ row ∈ scan (botPartition db b), conv = ConversationResponse.ofRow row := by
    have hall := (List.perm_insertionSort ..).mem_iff.mp (List.mem_of_mem_take hmem)
    obtain ⟨b, hb, hrows⟩ := List.mem_flatMap.mp hall
    obtain ⟨row, hrow, rfl⟩ := List.mem_map.mp hrows
    exact ⟨b, hb, row, List.mem_of_mem_take hrow, rfl⟩
  rw [listConversations] at h
  split at h
  · obtain rfl := Response.ok.inj h
    exact absurd hconv List.not_mem_nil
  · split at h
    · next b _ =>
      split at h
      · cases h
      · next hmine =>
        obtain rfl := Response.ok.inj h
        obtain ⟨b', hb', hrow⟩ := hcollect hconv
        obtain rfl := List.mem_singleton.mp hb'
        exact ⟨b', of_not_not hmine, hrow⟩
    · obtain rfl := Response.ok.inj h
      exact hcollect hconv

/-- A response that is not refused has its data. -/
theorem ok_of_toExcept {α : Type} {text : String} {f : α → Data} {r : Response α} {data : Data}
    (h : r.toExcept text f = .ok data) : ∃ a, r = .ok a ∧ data = f a := by
  cases r with
  | ok a => exact ⟨a, rfl, (Except.ok.inj h).symm⟩
  | notFound => cases h
  | forbidden => cases h

/-- A route is served for the tenant of the token. -/
theorem Sound.handle_of_respond (h : Sound C s) {E : Backend} {token : Token}
    (htoken : ∀ claims, C.decode s.api.now token = .ok claims →
      ∃ account, (account, token) ∈ s.api.issued)
    {r : ConversationRoute} {data : Data}
    (hok : (respond C P E s.api.now (.bearer token) (.conversations r) s.api.site).1 = .ok data) :
    ∃ account t, (account, token) ∈ s.api.issued ∧ account.tenant s.api.site.db = some t ∧
      r.handle E t s.api.site.db = .ok data := by
  rw [respond, respondWith, getDb_fst] at hok
  split at hok
  · cases hok
  · next t htenant =>
    obtain ⟨claims, huser, hadmin⟩ := exists_of_bind_eq_ok htenant
    have hdecode : C.decode s.api.now token = .ok claims := by
      rw [getCurrentUser] at huser
      split at huser
      · next payload hpayload =>
        obtain rfl := Except.ok.inj huser
        exact hpayload
      · cases huser
      · cases huser
    obtain ⟨account, hmem⟩ := htoken claims hdecode
    obtain ⟨t', hdescribes, hrow⟩ := Opening.describes_of_issued h.issued hmem hdecode
    rw [getAdminIdFromUser_eq_ok hdescribes] at hadmin
    obtain rfl := Except.ok.inj hadmin
    exact ⟨account, t', hmem, hrow, hok⟩

/-- **What a response has**, for any tenant. -/
theorem Sound.discloses (h : Sound C s) {E : Backend} (hE : E.cassandra = s.path.db)
    (hscan : ∀ rows, ∀ row ∈ E.scan rows, ∃ key, rows key = some row) {t : Uuid}
    {r : ConversationRoute} {data : Data} (hok : r.handle E t s.api.site.db = .ok data) :
    s.Discloses t data r := by
  cases r with
  | listConversations status bot_id limit =>
    obtain ⟨cs, hcs, rfl⟩ := ok_of_toExcept hok
    refine ⟨cs, rfl, fun conv hconv => ?_⟩
    obtain ⟨b, hb, row, hscanned, rfl⟩ := exists_of_listed hcs hconv
    rw [hE] at hscanned
    obtain ⟨rest, hrow⟩ := hscan _ row hscanned
    obtain ⟨f, c, hf, hstarts, hkey, hid, -⟩ := h.path.rows.conversationsByBot _ row hrow
    obtain rfl : b = f.bot_id := Cell.text.inj (Option.some.inj hkey)
    exact ⟨c, hid, h.startedFor hf hstarts hb⟩
  | getConversation c =>
    obtain ⟨response, hresponse, -⟩ := ok_of_toExcept hok
    rw [hE] at hresponse
    exact h.of_reads (Or.inl ⟨response, hresponse⟩)
  | getMessages c bucket limit =>
    obtain ⟨response, hresponse, -⟩ := ok_of_toExcept hok
    rw [hE] at hresponse
    exact h.of_reads (Or.inr ⟨E.scan, E.now, bucket, limit, response, hresponse⟩)

/-- **In every run** a request that is answered was made with a token of the tenant, and what it
lists, shows or pages through was started by a customer of one of the tenant's bots; only a
conversation without a bot is shown to everybody. -/
theorem disclosed_of_run {now : ℤ} {schedule : List (DeploymentStep Token)}
    (hunforged : Transition.Guarded (step C invalid P) (Unforged C) (empty now) schedule)
    (hr : Transition.run (step C invalid P) (empty now) schedule = some s)
    {E : Backend} (hE : E.cassandra = s.path.db)
    (hscan : ∀ rows, ∀ row ∈ E.scan rows, ∃ key, rows key = some row) {token : Token}
    (htoken : ∀ claims, C.decode s.api.now token = .ok claims →
      ∃ account, (account, token) ∈ s.api.issued)
    {r : ConversationRoute} {data : Data}
    (hok : (respond C P E s.api.now (.bearer token) (.conversations r) s.api.site).1 = .ok data) :
    ∃ account t, (account, token) ∈ s.api.issued ∧ account.tenant s.api.site.db = some t ∧
      s.Discloses t data r := by
  have h : Sound C s := sound_of_run hunforged hr
  obtain ⟨account, t, hmem, htenant, hhandle⟩ := h.handle_of_respond htoken hok
  exact ⟨account, t, hmem, htenant, h.discloses hE hscan hhandle⟩

/-- What the API has after this run. -/
def greetedBackend (s : Deployment Claims) : Backend :=
  { quietBackend with
    cassandra := s.path.db
    scan := fun rows => (rows [DateTime.noon.cell, .text "conv-1"]).toList }

/-- The admin, who has removed the bot, still sees the conversation. -/
theorem disclosed_of_run_greeting : ∃ s data, greeted = some s ∧
    (respond plainCrypto anyColumns (greetedBackend s) s.api.now (.bearer sampleClaims)
      (.conversations (.listConversations none none ⟨50, by decide⟩)) s.api.site).1 =
        .ok (.conversations [data]) ∧
    data.conversation_id = some (.text "conv-1") ∧
    ∃ account t, (account, sampleClaims) ∈ s.api.issued ∧
      account.tenant s.api.site.db = some t ∧
        s.Discloses t (.conversations [data]) (.listConversations none none ⟨50, by decide⟩) := by
  have hr : greeted = some (greeted.get rfl) := (Option.some_get _).symm
  refine ⟨_, _, hr, rfl, ?_⟩
  refine ⟨rfl, ?_⟩
  refine disclosed_of_run (C := plainCrypto) (P := anyColumns)
    (E := greetedBackend (greeted.get rfl)) (guarded_of_tokenless rfl) hr rfl ?_ ?_ rfl
  · exact fun rows row hrow => ⟨_, Option.mem_toList.mp hrow⟩
  · intro claims _
    exact ⟨.admin sampleAdmin.id, List.mem_cons_self⟩

end Deployment

end TitanChat
