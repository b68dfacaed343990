import TitanChat.AccountEdits
import TitanChat.Internal.PubSub

/-!
# The live feed of a dashboard

The handlers of the consumer publish what happens to a chat on the channel of the admin who owns the
bot, and `ws_dashboard` forwards what is published there to a socket. Between the two there are a
lookup in the registry, a `PUBLISH`, the connection of the subscriber, and three tasks that share
the socket: one that forwards, one that pings every 30 seconds, and the loop that reads what the
client sends. Everything can happen in between, and every await can fail.

## What a dashboard gets

Redis keeps nothing, so a dashboard is owed what is published from its `SUBSCRIBE` on. As long as
its reader runs, it has got exactly that, each message once and in order, but for the one that is
being sent and those that are waiting. What it gets is about bots of its own admin, as far as there
are such bots: the registry also has those whose `create_bot` was rolled back.

## When it stops

The reader ends at its first error, and nothing starts it again: the socket stays open and is
pinged, but is told nothing any more. The socket itself is closed by a disconnect and by an error of
the loop, and there the client has a say. The loop asks for a text, and finds none in a binary
frame. What the client sends is read with `json.loads`, of which the loop catches two exceptions,
and neither an object nested too deeply nor an integer with too many digits raises one of the two. A
JSON text that is no object passes it and has no `get`: the `AttributeError` ends the loop.
`DashboardStep.stops` has all of this, and `upToDate_iff` says that it is all, for a server that is
not shut down.

## Main definitions

* `Dashboard`, `Dashboard.step`: a socket with its three tasks
* `Feed`, `Feed.step`: the API server, the publishers and the dashboards
* `Dashboard.UpToDate`: nothing is missing
* `FeedStep.Known`: an event is announced of a bot that there is

## Main results

* `feed_of_run`: what a dashboard has got, in every state
* `upToDate_iff`: when it goes on
-/

namespace TitanChat

open PubSub

/-! ### One dashboard -/

/-- A message of `publish_admin_event`, with the bot that it is for. -/
structure Announcement where
  bot_id : String
  publication : Publication

/-- The channel of an admin. -/
def feedChannel (admin_id : String) : String := "admin:" ++ admin_id ++ ":feed"

/-- The channel that it is published on. -/
def Announcement.channel (a : Announcement) : String := a.publication.channel

/-- `_reader`: at `pubsub.listen()`, at `send_text`, or ended. -/
inductive FeedReader where
  | listening
  | sending (a : Announcement)
  | stopped

/-- `_keepalive`: at `sleep`, at `send_json`, or ended. -/
inductive Keepalive where
  | sleeping
  | sending
  | stopped

/-- The event loop: at `receive_text`, at `send_json`, or left. -/
inductive FeedLoop where
  | receiving
  | answering
  | closed
  deriving DecidableEq

/-- A frame that has arrived at the client. -/
inductive FeedFrame where
  | event (a : Announcement)
  | ping
  | pong

/-- A text of the client, as `json.loads` reads it. -/
inductive ClientText where
  | empty
  /-- `JSONDecodeError` -/
  | malformed
  /-- Another error: a `RecursionError`, or the `ValueError` of an integer of too many digits. -/
  | unreadable
  | json (value : Json)

/-- A socket that was accepted, after its `SUBSCRIBE`. -/
structure Dashboard where
  subscriber : Subscriber String Announcement
  subscribed : Bool
  reader : FeedReader
  keepalive : Keepalive
  loop : FeedLoop
  frames : List FeedFrame

inductive DashboardStep where
  | listen
  | listenFails
  | sent
  | sendFails
  | wake
  | pinged
  | pingFails
  | receive (text : ClientText)
  /-- A binary frame, in which `receive_text` finds no text. -/
  | receiveBytes
  | answered
  | answerFails
  | disconnect
  /-- The `finally` after the cancellations. -/
  | unsubscribe

/-- `msg.get("event") == "ping"`, for an object. -/
def ClientText.isPing : ClientText → Bool
  | .json value => (value.dict?.bind (·.lookup "event")).any fun event =>
      match event with
      | .str text => text = "ping"
      | _ => false
  | _ => false

/-- The loop does not catch what is raised: `json.loads` fails in another way, or `msg` has no
`get`. -/
def ClientText.raises : ClientText → Bool
  | .unreadable => true
  | .json value => value.dict?.isNone
  | _ => false

/-- The steps after which the reader does not run. -/
def DashboardStep.stops : DashboardStep → Bool
  | .listenFails | .sendFails | .receiveBytes | .answerFails | .disconnect => true
  | .receive text => text.raises
  | _ => false

namespace Dashboard

/-- The `finally` up to its first await. A frame that is on its way arrives before or never. -/
def close (d : Dashboard) : Dashboard :=
  { d with loop := .closed, reader := .stopped, keepalive := .stopped }

def arrive (d : Dashboard) (frame : FeedFrame) : Dashboard :=
  { d with frames := d.frames ++ [frame] }

def step (d : Dashboard) : DashboardStep → Option Dashboard
  | .listen =>
    match d.reader, d.subscriber.take with
    | .listening, some (a, subscriber) => some { d with subscriber, reader := .sending a }
    | _, _ => none
  | .listenFails =>
    match d.reader with
    | .listening => some { d with reader := .stopped }
    | _ => none
  | .sent =>
    match d.reader with
    | .sending a => some { d.arrive (.event a) with reader := .listening }
    | _ => none
  | .sendFails =>
    match d.reader with
    | .sending _ => some { d with reader := .stopped }
    | _ => none
  | .wake =>
    match d.keepalive with
    | .sleeping => some { d with keepalive := .sending }
    | _ => none
  | .pinged =>
    match d.keepalive with
    | .sending => some { d.arrive .ping with keepalive := .sleeping }
    | _ => none
  | .pingFails =>
    match d.keepalive with
    | .sending => some { d with keepalive := .stopped }
    | _ => none
  | .receive text =>
    if d.loop = .receiving then
      some (if text.raises then d.close
        else if text.isPing then { d with loop := .answering }
        else d)
    else none
  | .receiveBytes => if d.loop = .receiving then some d.close else none
  | .answered =>
    if d.loop = .answering then some { d.arrive .pong with loop := .receiving } else none
  | .answerFails => if d.loop = .answering then some d.close else none
  | .disconnect => if d.loop = .receiving then some d.close else none
  | .unsubscribe =>
    if d.loop = .closed ∧ d.subscribed = true then some { d with subscribed := false } else none

/-- A message is published. -/
def hear (d : Dashboard) (a : Announcement) : Dashboard :=
  if d.subscribed then { d with subscriber := d.subscriber.hear Announcement.channel a } else d

/-- The socket is accepted and subscribed, and its tasks are created. -/
def connect (channel : String) (log : List Announcement) : Dashboard where
  subscriber := .subscribe channel log
  subscribed := true
  reader := .listening
  keepalive := .sleeping
  loop := .receiving
  frames := []

/-- The events that have arrived at the client. -/
def events (d : Dashboard) : List Announcement :=
  d.frames.filterMap fun
    | .event a => some a
    | _ => none

/-- What has been published for it since its `SUBSCRIBE`. -/
def due (d : Dashboard) (log : List Announcement) : List Announcement :=
  d.subscriber.due Announcement.channel log

end Dashboard

/-- The event that is being sent. -/
def FeedReader.inFlight : FeedReader → List Announcement
  | .sending a => [a]
  | _ => []

def FeedReader.isAlive : FeedReader → Bool
  | .stopped => false
  | _ => true

@[simp] theorem inFlight_listening : FeedReader.listening.inFlight = [] := rfl

/-- **Nothing is missing**: the reader runs, and everything that is due has arrived, is being sent,
or is waiting. -/
def Dashboard.UpToDate (log : List Announcement) (d : Dashboard) : Prop :=
  d.reader.isAlive = true ∧
    d.due log = d.events ++ d.reader.inFlight ++ d.subscriber.queue

/-! ### The system -/

/-- The API server with its accounts, the calls of `publish_admin_event` that have looked up the
admin and not yet published, everything that has been published, and the dashboards. -/
structure Feed (Token : Type) where
  api : Api Token
  publishing : List Announcement
  log : List Announcement
  dashboards : List Dashboard

inductive FeedStep (Token : Type) where
  | api (x : ApiStep Token)
  /-- `publish_admin_event` up to its `PUBLISH`. -/
  | announce (now : ℤ) (bot_id event_type : String) (payload : Dict Json)
  | publish (i : ℕ)
  /-- The `PUBLISH` fails, and the exception is swallowed. -/
  | drop (i : ℕ)
  | connect (token : Authorization Token)
  | dashboard (i : ℕ) (a : DashboardStep)

/-- It stops the reader of the dashboard. -/
def FeedStep.stops {Token : Type} (i : ℕ) : FeedStep Token → Bool
  | .dashboard j a => j = i && a.stops
  | _ => false

/-- The commits of the requests go through. -/
def FeedStep.commits {Token : Type} : FeedStep Token → Bool
  | .api x => x.commits
  | _ => true

/-- An event is announced of a bot that there is, if the registry has it. -/
def FeedStep.Known {Token : Type} (f : Feed Token) : FeedStep Token → Prop
  | .announce _ bot_id _ _ => ∀ a, f.api.site.redis (botKey bot_id) = some a →
    ∃ bot, f.api.site.db.bots.lookup bot.id = some bot ∧ bot.id.str = bot_id
  | _ => True

namespace Feed

variable {Token : Type} (C : Crypto Token) (P : Columns)

def step (f : Feed Token) : FeedStep Token → Option (Feed Token)
  | .api x => (Api.step C P f.api x).map fun api => { f with api }
  | .announce now bot_id event_type payload =>
    match publishAdminEvent f.api.site.redis now bot_id event_type payload with
    | none => some f
    | some publication => some { f with publishing := f.publishing ++ [⟨bot_id, publication⟩] }
  | .publish i => f.publishing[i]?.map fun a =>
    { f with
      publishing := f.publishing.eraseIdx i
      log := f.log ++ [a]
      dashboards := f.dashboards.map (·.hear a) }
  | .drop i => f.publishing[i]?.map fun _ => { f with publishing := f.publishing.eraseIdx i }
  | .connect token =>
    match wsDashboard C f.api.now token with
    | .ok (.subscribed channel) =>
      some { f with dashboards := f.dashboards ++ [.connect channel f.log] }
    | _ => some f
  | .dashboard i a => f.dashboards[i]?.bind fun d => (d.step a).map fun d' =>
    { f with dashboards := f.dashboards.set i d' }

/-- No account and no dashboard. -/
def empty (now : ℤ) : Feed Token := ⟨.empty now, [], [], []⟩

abbrev Reachable (f : Feed Token) : Prop :=
  Transition.Reachable (step C P) (fun f => ∃ now, f = empty now) f

end Feed

/-! ### One dashboard, step by step -/

section Dashboards

variable {log : List Announcement} {d d' : Dashboard}

/-- What holds of a dashboard throughout. -/
structure Dashboard.Sound (log : List Announcement) (d : Dashboard) : Prop where
  since : d.subscriber.since ≤ log.length
  follows : d.subscribed = true → d.subscriber.Follows Announcement.channel log
  taken : d.subscriber.taken <+: d.due log
  alive : d.reader.isAlive = true → d.events ++ d.reader.inFlight = d.subscriber.taken
  events : d.events <+: d.subscriber.taken
  open_ : d.reader.isAlive = true → d.loop ≠ .closed
  subscribed : d.loop ≠ .closed → d.subscribed = true

theorem Dashboard.sound_connect (channel : String) (log : List Announcement) :
    (Dashboard.connect channel log).Sound log where
  since := Nat.le_refl _
  follows _ := Subscriber.follows_subscribe channel log
  taken := List.nil_prefix
  alive _ := rfl
  events := List.nil_prefix
  open_ _ := nofun
  subscribed _ := rfl

/-- A reader that runs is up to date. -/
theorem Dashboard.Sound.upToDate (h : d.Sound log) (halive : d.reader.isAlive = true) :
    d.UpToDate log := by
  refine ⟨halive, ?_⟩
  rw [h.alive halive]
  exact (h.follows (h.subscribed (h.open_ halive))).due

theorem Dashboard.hear_of_not_subscribed (h : d.subscribed = false) (a : Announcement) :
    d.hear a = d := by
  rw [Dashboard.hear, h]
  rfl

/-- **A message is published.** -/
theorem Dashboard.Sound.hear (h : d.Sound log) (a : Announcement) :
    (d.hear a).Sound (log ++ [a]) := by
  have hsince : d.subscriber.since ≤ (log ++ [a]).length := by
    rw [List.length_append]
    exact Nat.le_add_right_of_le h.since
  have htaken : d.subscriber.taken <+: d.due (log ++ [a]) :=
    h.taken.trans (Subscriber.due_prefix h.since [a])
  cases hsub : d.subscribed with
  | false =>
    rw [Dashboard.hear_of_not_subscribed hsub]
    exact { h with since := hsince, follows := fun h' => by simp [hsub] at h', taken := htaken }
  | true =>
    have hd : d.hear a = { d with subscriber := d.subscriber.hear Announcement.channel a } := by
      rw [Dashboard.hear, hsub]
      rfl
    rw [hd]
    constructor
    · simpa using hsince
    · exact fun _ => (h.follows hsub).publish a
    · simpa [Dashboard.due, Subscriber.due_hear] using htaken
    · simpa [Dashboard.events] using h.alive
    · simpa [Dashboard.events] using h.events
    · exact h.open_
    · exact fun _ => hsub

/-- The reader ends. -/
theorem Dashboard.Sound.stop (h : d.Sound log) : Sound log { d with reader := .stopped } where
  since := h.since
  follows := h.follows
  taken := h.taken
  alive h' := nomatch h'
  events := h.events
  open_ h' := nomatch h'
  subscribed := h.subscribed

theorem Dashboard.Sound.close (h : d.Sound log) : d.close.Sound log where
  since := h.since
  follows := h.follows
  taken := h.taken
  alive h' := nomatch h'
  events := h.events
  open_ h' := nomatch h'
  subscribed h' := absurd rfl h'

/-- The next event is taken. -/
theorem Dashboard.Sound.listen (h : d.Sound log) {a : Announcement}
    {subscriber : Subscriber String Announcement} (hreader : d.reader = .listening)
    (ht : d.subscriber.take = some (a, subscriber)) :
    Sound log { d with subscriber, reader := .sending a } := by
  have halive : d.reader.isAlive = true := by rw [hreader]; rfl
  have hsub : d.subscribed = true := h.subscribed (h.open_ halive)
  obtain ⟨hfollows, htaken⟩ := (h.follows hsub).take ht
  have hevents : d.events = d.subscriber.taken := by
    have hall := h.alive halive
    rwa [hreader, inFlight_listening, List.append_nil] at hall
  constructor
  · exact hfollows.since
  · exact fun _ => hfollows
  · exact ⟨subscriber.queue, hfollows.due.symm⟩
  · intro _
    rw [htaken, ← hevents]
    rfl
  · rw [htaken, ← hevents]
    exact List.prefix_append _ _
  · exact fun _ => h.open_ halive
  · exact fun _ => hsub

/-- The event has arrived. -/
theorem Dashboard.Sound.sent (h : d.Sound log) {a : Announcement}
    (hreader : d.reader = .sending a) :
    Sound log { d.arrive (.event a) with reader := .listening } := by
  have halive : d.reader.isAlive = true := by rw [hreader]; rfl
  have hall : d.events ++ [a] = d.subscriber.taken := by
    have hall := h.alive halive
    rwa [hreader] at hall
  have hevents : Dashboard.events { d.arrive (.event a) with reader := .listening } =
      d.subscriber.taken := by
    rw [← hall, Dashboard.events, Dashboard.arrive, List.filterMap_append]
    rfl
  constructor
  · exact h.since
  · exact h.follows
  · exact h.taken
  · intro _
    rw [hevents]
    exact List.append_nil _
  · rw [hevents]
    exact List.prefix_rfl
  · exact fun _ => h.open_ halive
  · exact h.subscribed

/-- A frame that is no event. -/
theorem Dashboard.Sound.arrive (h : d.Sound log) {frame : FeedFrame}
    (hframe : ∀ a, frame ≠ .event a) : (d.arrive frame).Sound log := by
  have hevents : (d.arrive frame).events = d.events := by
    rw [Dashboard.events, Dashboard.arrive, List.filterMap_append]
    cases frame with
    | event a => exact absurd rfl (hframe a)
    | ping | pong => exact List.append_nil _
  exact ⟨h.since, h.follows, h.taken, hevents ▸ h.alive, hevents ▸ h.events, h.open_, h.subscribed⟩

/-- Another state of the keepalive. -/
theorem Dashboard.Sound.setKeepalive (h : d.Sound log) (keepalive : Keepalive) :
    Sound log { d with keepalive } :=
  ⟨h.since, h.follows, h.taken, h.alive, h.events, h.open_, h.subscribed⟩

/-- Another state of the loop, which goes on. -/
theorem Dashboard.Sound.setLoop (h : d.Sound log) {loop : FeedLoop} (hopen : d.loop ≠ .closed)
    (hloop : loop ≠ .closed) : Sound log { d with loop } :=
  ⟨h.since, h.follows, h.taken, h.alive, h.events, fun _ => hloop, fun _ => h.subscribed hopen⟩

theorem Dashboard.Sound.unsubscribe (h : d.Sound log) (hclosed : d.loop = .closed) :
    Sound log { d with subscribed := false } :=
  ⟨h.since, nofun, h.taken, h.alive, h.events, h.open_, fun h' => absurd hclosed h'⟩

/-- **One step** of a dashboard. -/
theorem Dashboard.Sound.step (h : d.Sound log) {a : DashboardStep} (hs : d.step a = some d') :
    d'.Sound log := by
  cases a with
  | listen =>
    rw [Dashboard.step] at hs
    split at hs
    · next hreader ht =>
      obtain rfl := Option.some.inj hs
      exact h.listen hreader ht
    · cases hs
  | sent =>
    rw [Dashboard.step] at hs
    split at hs
    · next a hreader =>
      obtain rfl := Option.some.inj hs
      exact h.sent hreader
    · cases hs
  | listenFails | sendFails =>
    rw [Dashboard.step] at hs
    split at hs
    · obtain rfl := Option.some.inj hs
      exact h.stop
    · cases hs
  | wake | pingFails =>
    rw [Dashboard.step] at hs
    split at hs
    · obtain rfl := Option.some.inj hs
      exact h.setKeepalive _
    · cases hs
  | pinged =>
    rw [Dashboard.step] at hs
    split at hs
    · obtain rfl := Option.some.inj hs
      exact (h.arrive (by simp)).setKeepalive _
    · cases hs
  | receive text =>
    rw [Dashboard.step] at hs
    split at hs
    · next hloop =>
      have hopen : d.loop ≠ .closed := by rw [hloop]; nofun
      obtain rfl := Option.some.inj hs
      split
      · exact h.close
      · split
        · exact h.setLoop hopen nofun
        · exact h
    · cases hs
  | answered =>
    rw [Dashboard.step] at hs
    split at hs
    · next hloop =>
      have hopen : d.loop ≠ .closed := by rw [hloop]; nofun
      obtain rfl := Option.some.inj hs
      exact (h.arrive (by simp)).setLoop hopen nofun
    · cases hs
  | receiveBytes | answerFails | disconnect =>
    rw [Dashboard.step] at hs
    split at hs
    · obtain rfl := Option.some.inj hs
      exact h.close
    · cases hs
  | unsubscribe =>
    rw [Dashboard.step] at hs
    split at hs
    · next hclosed =>
      obtain rfl := Option.some.inj hs
      exact h.unsubscribe hclosed.1
    · cases hs

/-- **What stops a reader.** -/
theorem Dashboard.alive_step_iff {a : DashboardStep} (hs : d.step a = some d') :
    d'.reader.isAlive = true ↔ d.reader.isAlive = true ∧ a.stops = false := by
  cases a with
  | listen =>
    rw [Dashboard.step] at hs
    split at hs
    · next hreader ht =>
      obtain rfl := Option.some.inj hs
      simp [hreader, FeedReader.isAlive, DashboardStep.stops]
    · cases hs
  | sent =>
    rw [Dashboard.step] at hs
    split at hs
    · next a hreader =>
      obtain rfl := Option.some.inj hs
      simp [hreader, FeedReader.isAlive, DashboardStep.stops]
    · cases hs
  | listenFails | sendFails =>
    rw [Dashboard.step] at hs
    split at hs
    · obtain rfl := Option.some.inj hs
      simp [FeedReader.isAlive, DashboardStep.stops]
    · cases hs
  | wake | pinged | pingFails =>
    rw [Dashboard.step] at hs
    split at hs
    · obtain rfl := Option.some.inj hs
      simp [Dashboard.arrive, DashboardStep.stops]
    · cases hs
  | receive text =>
    rw [Dashboard.step] at hs
    split at hs
    · obtain rfl := Option.some.inj hs
      cases hraises : text.raises with
      | true => simp [Dashboard.close, FeedReader.isAlive, DashboardStep.stops, hraises]
      | false => cases hping : text.isPing <;> simp [DashboardStep.stops, hraises]
    · cases hs
  | answered =>
    rw [Dashboard.step] at hs
    split at hs
    · obtain rfl := Option.some.inj hs
      simp [Dashboard.arrive, DashboardStep.stops]
    · cases hs
  | receiveBytes | answerFails | disconnect =>
    rw [Dashboard.step] at hs
    split at hs
    · obtain rfl := Option.some.inj hs
      simp [Dashboard.close, FeedReader.isAlive, DashboardStep.stops]
    · cases hs
  | unsubscribe =>
    rw [Dashboard.step] at hs
    split at hs
    · obtain rfl := Option.some.inj hs
      simp [DashboardStep.stops]
    · cases hs

/-- The reader alone delivers what is waiting. -/
theorem Dashboard.Sound.exists_drained (h : d.Sound log) (halive : d.reader.isAlive = true) :
    ∃ as : List DashboardStep, (∀ a ∈ as, a = .listen ∨ a = .sent) ∧
      ∃ d', Transition.run Dashboard.step d as = some d' ∧ d'.events = d'.due log := by
  -- first what is being sent, then one message of the queue after the other
  have hqueue (queue : List Announcement) : ∀ d : Dashboard, d.Sound log → d.reader = .listening →
      d.subscriber.queue = queue → ∃ as : List DashboardStep, (∀ a ∈ as, a = .listen ∨ a = .sent) ∧
        ∃ d', Transition.run Dashboard.step d as = some d' ∧ d'.events = d'.due log := by
    induction queue with
    | nil =>
      intro d h hreader hempty
      refine ⟨[], by simp, d, rfl, ?_⟩
      have hdue := (h.upToDate (by rw [hreader]; rfl)).2
      rw [hdue, hreader, hempty, inFlight_listening, List.append_nil, List.append_nil]
    | cons a queue ih =>
      intro d h hreader hcons
      obtain ⟨subscriber, ht, hrest⟩ : ∃ subscriber,
          d.subscriber.take = some (a, subscriber) ∧ subscriber.queue = queue :=
        ⟨_, by rw [Subscriber.take, hcons], rfl⟩
      have hlisten : d.step .listen = some { d with subscriber, reader := .sending a } := by
        rw [Dashboard.step, hreader, ht]
      have hsound := h.listen hreader ht
      obtain ⟨as, has, d', hrun, hdone⟩ := ih _ (hsound.sent rfl) rfl hrest
      refine ⟨.listen :: .sent :: as, ?_, d', ?_, hdone⟩
      · simpa using has
      · rw [Transition.run, hlisten]
        exact hrun
  cases hreader : d.reader with
  | stopped => rw [hreader] at halive; cases halive
  | listening => exact hqueue _ d h hreader rfl
  | sending a =>
    obtain ⟨as, has, d', hrun, hdone⟩ := hqueue _ _ (h.sent hreader) rfl rfl
    refine ⟨.sent :: as, by simpa using has, d', ?_, hdone⟩
    rw [Transition.run, Dashboard.step, hreader]
    exact hrun

end Dashboards

/-! ### Whose events -/

/-- The announcement is on the channel of the admin who owns its bot. -/
def Announcement.Owned (db : Accounts) (a : Announcement) : Prop :=
  ∃ bot, db.bots.lookup bot.id = some bot ∧ bot.id.str = a.bot_id ∧
    a.channel = feedChannel bot.admin_id.str

section Owners

variable {s : Site} {c : Caller} {a : Announcement}

/-- A bot stays with its admin. -/
theorem owned_writeBot {row : AccountBot} {redis : String → Option String}
    (hold : ∀ bot, s.db.bots.lookup row.id = some bot → bot.admin_id = row.admin_id)
    (h : a.Owned s.db) : a.Owned (Edit.write s (.bot row redis)).db := by
  obtain ⟨bot, hbot, hid, hchannel⟩ := h
  by_cases heq : bot.id = row.id
  · rw [heq] at hbot hid
    rw [hold bot hbot] at hchannel
    exact ⟨row, AList.lookup_insert _, hid, hchannel⟩
  · exact ⟨bot, (AList.lookup_insert_ne heq).trans hbot, hid, hchannel⟩

theorem owned_of_write {e : Edit} (he : e.Allowed s c) (h : a.Owned s.db) :
    a.Owned (e.write s).db := by
  cases he with
  | nothing | register | switch | createAgent | changeAgent | cacheOnly | invalidateOnly => exact h
  | createBot by_ row hby hadmin howner hnew hkey hgenerated =>
    exact owned_writeBot (forall_of_notMem hnew) h
  | changeBot by_ old name config is_active redis hby howner hold hredis =>
    exact owned_writeBot (eq_of_lookup hold rfl) h
  | regenerateBotKey by_ old key hby howner hold hkey hgenerated =>
    exact owned_writeBot (eq_of_lookup hold rfl) h

/-- `publish_admin_event` takes the channel from the registry. -/
theorem owned_of_publishAdminEvent (hs : Integrity s) {now : ℤ} {bot_id event_type : String}
    {payload : Dict Json} {publication : Publication}
    (hknown : ∀ a, s.redis (botKey bot_id) = some a →
      ∃ bot, s.db.bots.lookup bot.id = some bot ∧ bot.id.str = bot_id)
    (h : publishAdminEvent s.redis now bot_id event_type payload = some publication) :
    Announcement.Owned s.db ⟨bot_id, publication⟩ := by
  rw [publishAdminEvent] at h
  split at h
  · cases h
  · next hbot =>
    rw [getAdminIdForBot, if_neg hbot] at h
    split at h
    · cases h
    · next admin_id hadmin =>
      obtain ⟨bot, hrow, rfl⟩ := hknown admin_id hadmin
      have howner : bot.admin_id.str = admin_id := hs.owner hrow hadmin
      split at h
      · cases h
      · obtain rfl := Option.some.inj h
        exact ⟨bot, hrow, rfl, congrArg feedChannel howner.symm⟩

end Owners

/-! ### Every run -/

section Runs

variable {Token : Type} {C : Crypto Token} {P : Columns} {f f' : Feed Token} {d : Dashboard} {i : ℕ}

structure Feed.Sound (f : Feed Token) : Prop where
  accounts : Integrity f.api.site
  dashboards : ∀ d ∈ f.dashboards, d.Sound f.log

/-- **One step** of the system. -/
theorem Feed.Sound.step (h : f.Sound) {x : FeedStep Token} (hs : Feed.step C P f x = some f') :
    f'.Sound := by
  cases x with
  | api x =>
    obtain ⟨api, hx, rfl⟩ := Option.map_eq_some_iff.mp hs
    exact ⟨h.accounts.step hx, h.dashboards⟩
  | announce now bot_id event_type payload =>
    rw [Feed.step] at hs
    split at hs <;> obtain rfl := Option.some.inj hs <;> exact ⟨h.accounts, h.dashboards⟩
  | publish i =>
    obtain ⟨a, -, rfl⟩ := Option.map_eq_some_iff.mp hs
    refine ⟨h.accounts, fun d hd => ?_⟩
    obtain ⟨d, hmem, rfl⟩ := List.mem_map.mp hd
    exact (h.dashboards d hmem).hear a
  | drop i =>
    obtain ⟨a, -, rfl⟩ := Option.map_eq_some_iff.mp hs
    exact ⟨h.accounts, h.dashboards⟩
  | connect token =>
    rw [Feed.step] at hs
    split at hs
    · next channel hopen =>
      obtain rfl := Option.some.inj hs
      refine ⟨h.accounts, fun d hd => ?_⟩
      rcases List.mem_append.mp hd with hd | hd
      · exact h.dashboards d hd
      · obtain rfl := List.mem_singleton.mp hd
        exact Dashboard.sound_connect channel f.log
    · obtain rfl := Option.some.inj hs
      exact h
  | dashboard i a =>
    obtain ⟨d, hd, hs⟩ := Option.bind_eq_some_iff.mp hs
    obtain ⟨d', hstep, rfl⟩ := Option.map_eq_some_iff.mp hs
    refine ⟨h.accounts, fun d₁ hd₁ => ?_⟩
    rcases List.mem_or_eq_of_mem_set hd₁ with hd₁ | rfl
    · exact h.dashboards d₁ hd₁
    · exact (h.dashboards d (List.mem_of_getElem? hd)).step hstep

/-- Only a request changes the accounts. -/
theorem Feed.api_step {x : FeedStep Token} (hs : Feed.step C P f x = some f') :
    f'.api = f.api ∨ ∃ y, x = .api y ∧ Api.step C P f.api y = some f'.api := by
  cases x with
  | api y =>
    obtain ⟨api, hy, rfl⟩ := Option.map_eq_some_iff.mp hs
    exact Or.inr ⟨y, rfl, hy⟩
  | announce | connect =>
    rw [Feed.step] at hs
    split at hs <;> obtain rfl := Option.some.inj hs <;> exact Or.inl rfl
  | publish i | drop i =>
    obtain ⟨a, -, rfl⟩ := Option.map_eq_some_iff.mp hs
    exact Or.inl rfl
  | dashboard i a =>
    obtain ⟨d, -, hs⟩ := Option.bind_eq_some_iff.mp hs
    obtain ⟨d', -, rfl⟩ := Option.map_eq_some_iff.mp hs
    exact Or.inl rfl

theorem Feed.sound_empty (now : ℤ) : (Feed.empty now : Feed Token).Sound :=
  ⟨integrity_empty, nofun⟩

theorem Feed.sound_of_reachable (h : Feed.Reachable C P f) : f.Sound := by
  refine h.invariant ?_ fun _ _ _ h hs => h.step hs
  rintro _ ⟨now, rfl⟩
  exact Feed.sound_empty now

/-- Everything that is being published or has been is on the channel of the owner. -/
def Feed.Owned (f : Feed Token) : Prop := ∀ a ∈ f.publishing ++ f.log, a.Owned f.api.site.db

theorem Feed.Owned.mono (h : f.Owned) (hapi : f'.api = f.api)
    (hsub : ∀ a ∈ f'.publishing ++ f'.log, a ∈ f.publishing ++ f.log) : f'.Owned := by
  intro a ha
  rw [hapi]
  exact h a (hsub a ha)

/-- **One step** that announces nothing of a bot that there is not. -/
theorem Feed.Owned.step (h : f.Owned) (hf : f.Sound) {x : FeedStep Token} (hknown : x.Known f)
    (hs : Feed.step C P f x = some f') : f'.Owned := by
  cases x with
  | api x =>
    obtain ⟨api, hx, rfl⟩ := Option.map_eq_some_iff.mp hs
    obtain ⟨e, he, heq⟩ := edits_of_step hf.accounts hx
    intro a ha
    dsimp only
    rw [heq]
    exact owned_of_write he (h a ha)
  | announce now bot_id event_type payload =>
    rw [Feed.step] at hs
    split at hs
    · obtain rfl := Option.some.inj hs
      exact h
    · next publication hpublish =>
      obtain rfl := Option.some.inj hs
      intro a ha
      rw [List.append_assoc, List.mem_append, List.singleton_append, List.mem_cons] at ha
      rcases ha with ha | rfl | ha
      · exact h a (List.mem_append_left _ ha)
      · exact owned_of_publishAdminEvent hf.accounts hknown hpublish
      · exact h a (List.mem_append_right _ ha)
  | publish i =>
    obtain ⟨b, hb, rfl⟩ := Option.map_eq_some_iff.mp hs
    refine h.mono rfl fun a ha => ?_
    rw [← List.append_assoc, List.mem_append, List.mem_append, List.mem_singleton] at ha
    rcases ha with (ha | ha) | rfl
    · exact List.mem_append_left _ (List.mem_of_mem_eraseIdx ha)
    · exact List.mem_append_right _ ha
    · exact List.mem_append_left _ (List.mem_of_getElem? hb)
  | drop i =>
    obtain ⟨b, -, rfl⟩ := Option.map_eq_some_iff.mp hs
    refine h.mono rfl fun a ha => ?_
    rcases List.mem_append.mp ha with ha | ha
    · exact List.mem_append_left _ (List.mem_of_mem_eraseIdx ha)
    · exact List.mem_append_right _ ha
  | connect token =>
    rw [Feed.step] at hs
    split at hs <;> obtain rfl := Option.some.inj hs <;> exact h
  | dashboard i a =>
    obtain ⟨d, -, hs⟩ := Option.bind_eq_some_iff.mp hs
    obtain ⟨d', -, rfl⟩ := Option.map_eq_some_iff.mp hs
    exact h

theorem Feed.owned_of_run {now : ℤ} {schedule : List (FeedStep Token)}
    (hknown : Transition.Guarded (Feed.step C P) (fun f x => x.Known f) (.empty now) schedule)
    (hr : Transition.run (Feed.step C P) (.empty now) schedule = some f) : f.Owned := by
  have hstep (f : Feed Token) (x : FeedStep Token) (f' : Feed Token) (hi : f.Sound ∧ f.Owned)
      (hx : x.Known f) (hs : Feed.step C P f x = some f') : f'.Sound ∧ f'.Owned :=
    ⟨hi.1.step hs, hi.2.step hi.1 hx hs⟩
  exact ((Transition.always_of_guarded hstep ⟨Feed.sound_empty now, nofun⟩ hknown).run hr).2

/-- If all commits go through, each event is of a bot that there is. -/
theorem known_of_commits {now : ℤ} {schedule : List (FeedStep Token)}
    (hcommits : ∀ x ∈ schedule, x.commits = true) :
    Transition.Guarded (Feed.step C P) (fun f x => x.Known f) (.empty now) schedule := by
  have hstep (f : Feed Token) (x : FeedStep Token) (f' : Feed Token)
      (hi : f.Sound ∧ Registered f.api.site) (hx : x.commits = true)
      (hs : Feed.step C P f x = some f') : f'.Sound ∧ Registered f'.api.site := by
    refine ⟨hi.1.step hs, ?_⟩
    rcases Feed.api_step hs with heq | ⟨y, rfl, hy⟩
    · rw [heq]
      exact hi.2
    · exact hi.2.step hi.1.accounts hx hy
  have halways := Transition.always_of_guarded hstep ⟨Feed.sound_empty now, registered_empty⟩
    (Transition.guarded_of_forall (fun x hx _ => hcommits x hx) _)
  refine halways.guarded fun f x f' hi hs => ?_
  cases x with
  | announce now bot_id event_type payload =>
    intro a ha
    obtain ⟨bot, hbot, hid, -⟩ := hi.2 bot_id a ha
    exact ⟨bot, hbot, hid⟩
  | api | publish | drop | connect | dashboard => trivial

/-- **The feed.** In every state that some order of steps reaches, each dashboard has got what was
published on its channel since its `SUBSCRIBE`, each message once and in order, up to some point.
If its reader runs, what is missing is being sent or is waiting. And if each event was announced of
a bot that there is, then every event that it has got is about a bot of the admin whose channel it
is. -/
theorem feed_of_run {now : ℤ} {schedule : List (FeedStep Token)}
    (hr : Transition.run (Feed.step C P) (.empty now) schedule = some f) (hd : d ∈ f.dashboards) :
    d.events <+: d.due f.log ∧ (d.reader.isAlive = true → d.UpToDate f.log) ∧
      (Transition.Guarded (Feed.step C P) (fun f x => x.Known f) (.empty now) schedule →
        ∀ a ∈ d.events, ∃ bot, f.api.site.db.bots.lookup bot.id = some bot ∧
          bot.id.str = a.bot_id ∧ feedChannel bot.admin_id.str = d.subscriber.channel) := by
  have hs := Feed.sound_of_reachable (Transition.reachable_of_run ⟨now, rfl⟩ hr)
  have hdash := hs.dashboards d hd
  have hpart : d.events <+: d.due f.log := hdash.events.trans hdash.taken
  refine ⟨hpart, hdash.upToDate, fun hknown a ha => ?_⟩
  obtain ⟨hmem, hchannel⟩ := List.mem_filter.mp (hpart.subset ha)
  obtain ⟨bot, hrow, hid, howner⟩ := Feed.owned_of_run hknown hr a
    (List.mem_append_right _ (List.mem_of_mem_drop hmem))
  exact ⟨bot, hrow, hid, howner.symm.trans (of_decide_eq_true hchannel)⟩

/-- The reader of the dashboard runs. -/
def Feed.Alive (i : ℕ) (f : Feed Token) : Prop :=
  ∃ d, f.dashboards[i]? = some d ∧ d.reader.isAlive = true

theorem Dashboard.hear_reader (d : Dashboard) (a : Announcement) :
    (d.hear a).reader = d.reader := by
  rw [Dashboard.hear]
  split <;> rfl

/-- A dashboard is there to stay. -/
theorem Feed.length_step {x : FeedStep Token} (hs : Feed.step C P f x = some f')
    (hi : i < f.dashboards.length) : i < f'.dashboards.length := by
  cases x with
  | api x =>
    obtain ⟨api, -, rfl⟩ := Option.map_eq_some_iff.mp hs
    exact hi
  | announce =>
    rw [Feed.step] at hs
    split at hs <;> obtain rfl := Option.some.inj hs <;> exact hi
  | publish j =>
    obtain ⟨a, -, rfl⟩ := Option.map_eq_some_iff.mp hs
    simpa using hi
  | drop j =>
    obtain ⟨a, -, rfl⟩ := Option.map_eq_some_iff.mp hs
    exact hi
  | connect token =>
    rw [Feed.step] at hs
    split at hs <;> obtain rfl := Option.some.inj hs
    · simpa using Nat.lt_succ_of_lt hi
    · exact hi
  | dashboard j a =>
    obtain ⟨d, -, hs⟩ := Option.bind_eq_some_iff.mp hs
    obtain ⟨d', -, rfl⟩ := Option.map_eq_some_iff.mp hs
    simpa using hi

/-- **One step** stops a dashboard exactly if it is one that does. -/
theorem Feed.alive_step_iff {x : FeedStep Token} (hs : Feed.step C P f x = some f')
    (hi : i < f.dashboards.length) : Feed.Alive i f' ↔ Feed.Alive i f ∧ x.stops i = false := by
  cases x with
  | api x =>
    obtain ⟨api, -, rfl⟩ := Option.map_eq_some_iff.mp hs
    simp [Feed.Alive, FeedStep.stops]
  | announce =>
    rw [Feed.step] at hs
    split at hs <;> obtain rfl := Option.some.inj hs <;> simp [Feed.Alive, FeedStep.stops]
  | publish j =>
    obtain ⟨a, -, rfl⟩ := Option.map_eq_some_iff.mp hs
    simp [Feed.Alive, FeedStep.stops, Dashboard.hear_reader]
  | drop j =>
    obtain ⟨a, -, rfl⟩ := Option.map_eq_some_iff.mp hs
    simp [Feed.Alive, FeedStep.stops]
  | connect token =>
    rw [Feed.step] at hs
    split at hs <;> obtain rfl := Option.some.inj hs
    · simp [Feed.Alive, FeedStep.stops, List.getElem?_append_left hi]
    · simp [Feed.Alive, FeedStep.stops]
  | dashboard j a =>
    obtain ⟨d, hd, hs⟩ := Option.bind_eq_some_iff.mp hs
    obtain ⟨d', hstep, rfl⟩ := Option.map_eq_some_iff.mp hs
    by_cases hj : j = i
    · subst hj
      obtain ⟨_, rfl⟩ := List.getElem?_eq_some_iff.mp hd
      have halive := Dashboard.alive_step_iff hstep
      simp [Feed.Alive, FeedStep.stops, hi, halive]
    · simp [Feed.Alive, FeedStep.stops, List.getElem?_set_ne hj, hj]

/-- Steps of one dashboard. -/
theorem Feed.run_dashboard {as : List DashboardStep} {d' : Dashboard}
    (hd : f.dashboards[i]? = some d) (hr : Transition.run Dashboard.step d as = some d') :
    Transition.run (Feed.step C P) f (as.map (.dashboard i)) =
      some { f with dashboards := f.dashboards.set i d' } := by
  induction as generalizing f d with
  | nil =>
    obtain rfl := Option.some.inj hr
    obtain ⟨hi, rfl⟩ := List.getElem?_eq_some_iff.mp hd
    rw [List.set_getElem_self]
    rfl
  | cons a as ih =>
    obtain ⟨d₁, hstep, hr⟩ := Option.bind_eq_some_iff.mp hr
    obtain ⟨hi, -⟩ := List.getElem?_eq_some_iff.mp hd
    have hfeed : Feed.step C P f (.dashboard i a) =
        some { f with dashboards := f.dashboards.set i d₁ } := by
      rw [Feed.step, hd, Option.bind_some, hstep, Option.map_some]
    have hrest := ih (f := { f with dashboards := f.dashboards.set i d₁ })
      (List.getElem?_set_self hi) hr
    rw [List.map_cons, Transition.run, hfeed, Option.bind_some, hrest]
    simp only [List.set_set]

/-- **When a dashboard goes on.** It was running, and is up to date at the end of a run if and only
if none of the steps of the run has stopped it; then its reader can deliver the rest by itself. -/
theorem upToDate_iff (h : Feed.Reachable C P f) (hd : f.dashboards[i]? = some d)
    (halive : d.reader.isAlive = true) {schedule : List (FeedStep Token)}
    (hr : Transition.run (Feed.step C P) f schedule = some f') :
    ((∃ d', f'.dashboards[i]? = some d' ∧ d'.UpToDate f'.log) ↔
      Transition.Guarded (Feed.step C P) (fun _ x => x.stops i = false) f schedule) ∧
    ∀ d', f'.dashboards[i]? = some d' → d'.UpToDate f'.log →
      ∃ as : List DashboardStep, (∀ a ∈ as, a = .listen ∨ a = .sent) ∧
        ∃ f'' d'', Transition.run (Feed.step C P) f' (as.map (.dashboard i)) = some f'' ∧
          f''.dashboards[i]? = some d'' ∧ f''.log = f'.log ∧ d''.events = d''.due f'.log := by
  have hs' := Feed.sound_of_reachable (h.run hr)
  obtain ⟨hi, -⟩ := List.getElem?_eq_some_iff.mp hd
  have hiff : Feed.Alive i f' ↔ Feed.Alive i f ∧
      Transition.Guarded (Feed.step C P) (fun _ x => x.stops i = false) f schedule :=
    Transition.end_iff_guarded (K := fun f => i < f.dashboards.length)
      (fun _ _ _ hi hs => Feed.length_step hs hi) (fun _ _ _ hi hs => Feed.alive_step_iff hs hi)
      hi hr
  constructor
  · refine Iff.trans ?_ (hiff.trans (and_iff_right ⟨d, hd, halive⟩))
    constructor
    · exact fun ⟨d', hd', hdue⟩ => ⟨d', hd', hdue.1⟩
    · exact fun ⟨d', hd', halive'⟩ =>
        ⟨d', hd', (hs'.dashboards d' (List.mem_of_getElem? hd')).upToDate halive'⟩
  · intro d' hd' hdue
    have hsound := hs'.dashboards d' (List.mem_of_getElem? hd')
    obtain ⟨as, has, d'', hrun, hdone⟩ := hsound.exists_drained hdue.1
    refine ⟨as, has, _, d'', Feed.run_dashboard hd' hrun, ?_, rfl, hdone⟩
    exact List.getElem?_set_self (List.getElem?_eq_some_iff.mp hd').1

/-- The admin opens a dashboard. -/
def openingDashboard : List (FeedStep Claims) :=
  settingUp.map .api ++ [.connect (.bearer sampleClaims)]

/-- The run, to its end. -/
def watching : Option (Feed Claims) :=
  Transition.run (Feed.step plainCrypto anyColumns) (.empty 0) openingDashboard

theorem reachable_watching {f : Feed Claims} (h : watching = some f) :
    Feed.Reachable plainCrypto anyColumns f := Transition.reachable_of_run ⟨0, rfl⟩ h

/-- A chat is started. -/
def newChat : List (FeedStep Claims) :=
  [.announce 0 sampleBotId.str "new_chat" ∅, .publish 0, .dashboard 0 .listen, .dashboard 0 .sent]

/-- The run, to its end. -/
def chatted : Option (Feed Claims) :=
  Transition.run (Feed.step plainCrypto anyColumns) (.empty 0) (openingDashboard ++ newChat)

/-- It has arrived, and is of the admin's bot. -/
theorem feed_of_run_newChat : ∃ (f : Feed Claims) (d : Dashboard), chatted = some f ∧
    f.dashboards[0]? = some d ∧ d.UpToDate f.log ∧
      d.events.map Announcement.bot_id = [sampleBotId.str] ∧
      ∀ a ∈ d.events, ∃ bot, f.api.site.db.bots.lookup bot.id = some bot ∧
        bot.id.str = a.bot_id ∧ feedChannel bot.admin_id.str = d.subscriber.channel := by
  have hr : chatted = some (chatted.get rfl) := (Option.some_get _).symm
  have hd : (chatted.get rfl).dashboards[0]? = some _ := List.getElem?_eq_getElem (by decide)
  obtain ⟨-, hdue, howned⟩ := feed_of_run hr (List.mem_of_getElem? hd)
  exact ⟨_, _, hr, hd, hdue rfl, rfl, howned (known_of_commits (by decide))⟩

/-- The client sends `null`. -/
theorem upToDate_iff_null : ∃ f f' : Feed Claims, watching = some f ∧
    Transition.run (Feed.step plainCrypto anyColumns) f
      (newChat ++ [.dashboard 0 (.receive (.json .null))]) = some f' ∧
      ¬∃ d', f'.dashboards[0]? = some d' ∧ d'.UpToDate f'.log := by
  have hw : watching = some (watching.get rfl) := (Option.some_get _).symm
  have hr : Transition.run (Feed.step plainCrypto anyColumns) (watching.get rfl)
      (newChat ++ [.dashboard 0 (.receive (.json .null))]) = some _ := rfl
  have hd : (watching.get rfl).dashboards[0]? = some _ := rfl
  refine ⟨_, _, hw, hr, fun hdue => ?_⟩
  have hguarded := (upToDate_iff (reachable_watching hw) hd rfl hr).1.mp hdue
  revert hguarded
  decide

end Runs

end TitanChat
