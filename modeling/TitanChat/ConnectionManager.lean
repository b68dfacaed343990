import Mathlib.Logic.Function.Basic
import TitanChat.Internal.Transition
import TitanChat.OnlineTracker

/-!
# The sockets of one gateway

`ConnectionManager` in `gateway/websocket_manager.py`, with the tasks of `gateway/main.py` that call
it: one endpoint task for each socket, one `send_message` for each push, and the sweep, which pings
every socket and evicts the stale ones.

## Scheduling

Tasks switch at an `await`. An await is two steps here. First it is answered: the awaited call takes
effect, if it does, and the reply waits with the task. Then the task is resumed and runs to its next
await. Other tasks may run before, between and after the two. A call of Redis can fail without an
effect, or take effect and then fail.

The rate limit, the publication and the replies of the endpoint are one await, `processing`: they
touch neither the tables nor Redis keys of this file. Authentication is over before `connect` is
called, so an endpoint starts there. Tasks are not cancelled.

## Sockets and causes

A socket is named by the number of its endpoint task. Three things are recorded that the program
does not keep. `registry` holds the socket that wrote the key, in place of the server name. `latest`
is the last socket that `connect` has put into `connections`; the tracker's entry of a conversation
is the chat of that socket, since a client that reconnects goes on with its chat. And `log` lists
what happens to each socket, with the socket on whose behalf a cleanup was started.

## Main definitions

* `Pc`: where a task is suspended
* `proceed`: what a task does from one await to the next
* `State.disconnect`: the beginning of `disconnect`, which is the same for its five callers
* `State`, `Action`, `step`
-/

namespace TitanChat

namespace Gateway

/-- A socket, by the number of its endpoint task. -/
abbrev Socket := ℕ

/-- `_STALE_TIMEOUT_SECONDS`. -/
def STALE_TIMEOUT_SECONDS : ℤ := 120

section Dictionaries

variable {ν : Type*}

/-- `d[key] = v`. An `AList` has the newest key first; a key that is there keeps its place. -/
def setItem (d : Dict ν) (key : String) (v : ν) : Dict ν :=
  if key ∈ d then d.replace key v else d.insert key v

/-- `d.items()`. -/
def items (d : Dict ν) : List (String × ν) := d.entries.reverse.map fun e => (e.1, e.2)

theorem dlookup_kreplace (key : String) (v : ν) (l : List (Σ _ : String, ν)) (k : String) :
    (l.kreplace key v).dlookup k =
      if k = key then (l.dlookup key).map fun _ => v else l.dlookup k := by
  induction l with
  | nil => simp [List.kreplace]
  | cons e l ih =>
    obtain ⟨key', v'⟩ := e
    by_cases hkey : key = key'
    · subst hkey
      have hcons : List.kreplace key v (⟨key, v'⟩ :: l) = ⟨key, v⟩ :: l :=
        List.lookmap_cons_some _ _ (if_pos rfl)
      rw [hcons]
      by_cases hk : k = key
      · subst hk
        simp
      · simp [hk, List.dlookup_cons_ne]
    · have hcons : List.kreplace key v (⟨key', v'⟩ :: l) = ⟨key', v'⟩ :: l.kreplace key v :=
        List.lookmap_cons_none _ _ (if_neg hkey)
      rw [hcons]
      by_cases hk : k = key'
      · subst hk
        simp [Ne.symm hkey]
      · simp [List.dlookup_cons_ne, hk, hkey, ih]

theorem lookup_setItem (d : Dict ν) (key : String) (v : ν) (k : String) :
    (setItem d key v).lookup k = if k = key then some v else d.lookup k := by
  rw [setItem]
  split
  · next hmem =>
    obtain ⟨v', hv'⟩ := Option.isSome_iff_exists.mp (AList.lookup_isSome.mpr hmem)
    have hreplace := dlookup_kreplace key v d.entries k
    have hv'' : d.entries.dlookup key = some v' := hv'
    rwa [hv''] at hreplace
  · by_cases hk : k = key
    · subst hk
      rw [AList.lookup_insert, if_pos rfl]
    · rw [AList.lookup_insert_ne hk, if_neg hk]

theorem mem_items_iff {d : Dict ν} {key : String} {v : ν} :
    (key, v) ∈ items d ↔ d.lookup key = some v := by
  rw [← Option.mem_def, AList.mem_lookup_iff]
  simp only [items, List.mem_map, List.mem_reverse, Prod.mk.injEq]
  constructor
  · rintro ⟨e, he, rfl, rfl⟩
    exact he
  · exact fun h => ⟨⟨key, v⟩, h, rfl, rfl⟩

end Dictionaries

/-! ### What happens to a socket -/

/-- An event of a socket itself. -/
inductive Event where
  /-- Its endpoint task has left the receive loop. -/
  | ended
  /-- A `send_json` on it has raised. -/
  | sendFailed
  /-- It was the socket of a conversation that has not been seen for too long. -/
  | timedOut
  /-- A newer socket took its place in `connections`. -/
  | superseded
  deriving DecidableEq, Repr

/-- What a socket can lose. -/
inductive Loss where
  /-- Its entry in `connections`. -/
  | entry
  /-- The connection: `disconnect` closes it. -/
  | connection
  /-- The registry key that its `connect` wrote. -/
  | registration
  /-- The tracker's entry of its conversation. -/
  | chat
  deriving DecidableEq, Repr

/-- A line of the log. The `cause` of a loss is the socket on whose behalf the cleanup was
started. -/
inductive Incident where
  | event (e : Event) (w : Socket)
  | loss (l : Loss) (w : Socket) (cause : Option Socket)
  deriving DecidableEq, Repr

/-! ### Tasks -/

/-- The two halves of the sweep. -/
inductive Round where
  | ping
  | evict
  deriving DecidableEq, Repr

/-- What the caller of `disconnect` does next. -/
inductive After where
  /-- The endpoint goes on to its `finally`. -/
  | inFinally (conversation_id : String) (w : Socket)
  /-- The endpoint ends. -/
  | done
  /-- `send_message` gives its lock back and returns. -/
  | release (lock : ℕ)
  /-- The sweep goes on with its list. -/
  | sweep (rest : List (String × Option Socket)) (next : Round)

/-- A call of `disconnect` after its first lines. -/
structure Cleanup where
  conversation_id : String
  /-- The socket whose event made the caller call. -/
  cause : Option Socket
  /-- What was popped from `connections`. -/
  websocket : Option Socket
  after : After

/-- The await that a task is at. -/
inductive Pc where
  /-- `_force_close`: `close(code=4000)` of the old socket. -/
  | superseding (conversation_id : String) (w old : Socket)
  | accepting (conversation_id : String) (w : Socket)
  /-- `register_connection`. -/
  | registering (conversation_id : String) (w : Socket)
  /-- `close(code=1011)`, after `connect` has raised. -/
  | refusing (w : Socket)
  /-- `receive_json`. -/
  | receiving (conversation_id : String) (w : Socket)
  /-- `refresh_connection_ttl`, in `heartbeat`. -/
  | refreshing (conversation_id : String) (w : Socket) (data : Json)
  | processing (conversation_id : String) (w : Socket)
  /-- `async with lock`, in `send_message` to `w`. -/
  | locking (conversation_id : String) (w : Socket) (lock : ℕ)
  | sending (conversation_id : String) (w : Socket) (lock : ℕ)
  /-- `ping_all`: the ping of `w`, the sockets after it and the failures so far. -/
  | pinging (conversation_id : String) (w : Socket) (rest : List (String × Socket))
      (stale : List (String × Option Socket))
  /-- `asyncio.sleep(15)`, before a half of the sweep. -/
  | sleeping (next : Round)
  /-- `unregister_connection`, in `disconnect`. -/
  | unregistering (d : Cleanup)
  /-- The `HGETALL` of `chat_offline`. -/
  | reading (d : Cleanup)
  /-- The pipeline of `chat_offline`. -/
  | offlining (d : Cleanup) (meta_ : Dict String)
  | closing (d : Cleanup)
  | finished

/-- How an await ends. -/
inductive Reply where
  | done
  | raised
  /-- The call takes effect and raises. -/
  | lost
  /-- `WebSocketDisconnect`. -/
  | disconnected
  /-- The frame that `receive_json` returns. -/
  | data (v : Json)
  /-- The hash that `HGETALL` returns. -/
  | found (meta_ : Dict String)

/-- The ways in which an await can end; of `HGETALL`, `done` stands for the hash it finds. -/
def Pc.admits : Pc → Reply → Bool
  | .receiving .., .data _ | .receiving .., .disconnected | .receiving .., .raised => true
  | .processing .., .disconnected => true
  | .registering .., .lost | .refreshing .., .lost | .unregistering _, .lost
  | .offlining .., .lost => true
  | .receiving .., _ | .locking .., _ | .finished, _ | .sleeping _, .raised => false
  | _, .done | _, .raised => true
  | _, _ => false

/-- `accept`: if it succeeds, `connect` stores its socket next. -/
def Pc.isAccepting : Pc → Bool
  | .accepting .. => true
  | _ => false

/-- A task, with the reply that it has not seen yet. -/
structure Task where
  pc : Pc
  inbox : Option Reply

structure State where
  connections : Dict Socket
  lastSeen : Dict ℤ
  sendLocks : Dict ℕ
  /-- The locks that are held. -/
  locked : ℕ → Bool
  /-- How many locks there have been. -/
  locks : ℕ
  /-- `ws:conn:{conversation_id}`, by the socket that wrote it. -/
  registry : String → Option Socket
  tracker : Tracker
  /-- The last socket that was put into `connections`. -/
  latest : String → Option Socket
  /-- `time.time()`, in microseconds. -/
  clock : ℤ
  tasks : ℕ → Task
  /-- How many tasks there have been. -/
  created : ℕ
  log : List Incident

namespace State

/-- Task `0` is the sweep, which begins with a ping. -/
def start : State where
  connections := ∅
  lastSeen := ∅
  sendLocks := ∅
  locked _ := false
  locks := 0
  registry _ := none
  tracker := .empty
  latest _ := none
  clock := 0
  tasks n := { pc := if n = 0 then .sleeping .ping else .finished, inbox := none }
  created := 1
  log := []

def note (s : State) (incidents : List Incident) : State := { s with log := s.log ++ incidents }

/-- Suspend a task at an await. -/
def goto (s : State) (t : ℕ) (pc : Pc) : State :=
  { s with tasks := Function.update s.tasks t { pc := pc, inbox := none } }

/-- Create a task. -/
def spawn (s : State) (pc : Pc) : State := { s.goto s.created pc with created := s.created + 1 }

def setLock (s : State) (lock : ℕ) (held : Bool) : State :=
  { s with locked := Function.update s.locked lock held }

/-- The three `pop` of `disconnect` and `_force_close`. -/
def forget (s : State) (conversation_id : String) : State :=
  { s with
    connections := s.connections.erase conversation_id
    lastSeen := s.lastSeen.erase conversation_id
    sendLocks := s.sendLocks.erase conversation_id }

/-- A newer socket takes the place of the one that `connections` holds. -/
def supersede (s : State) (conversation_id : String) : State :=
  s.note ((s.connections.lookup conversation_id).toList.flatMap fun x =>
    [.event .superseded x, .loss .entry x (some x)])

/-- The assignments of `connect`. They may meet an entry again, if two calls overlap. -/
def store (s : State) (conversation_id : String) (w : Socket) : State :=
  { s.supersede conversation_id with
    connections := setItem s.connections conversation_id w
    lastSeen := setItem s.lastSeen conversation_id s.clock
    sendLocks := setItem s.sendLocks conversation_id s.locks
    locks := s.locks + 1
    latest := Function.update s.latest conversation_id (some w) }

/-- `get_stale_connections`. -/
def getStaleConnections (s : State) : List String :=
  ((items s.lastSeen).filter fun e => STALE_TIMEOUT_SECONDS * 1000000 < s.clock - e.2).map Prod.fst

/-- The stale conversations with their sockets, if they have one. -/
def verdicts (s : State) : List (String × Option Socket) :=
  s.getStaleConnections.map fun c => (c, s.connections.lookup c)

end State

theorem mem_getStaleConnections {s : State} {c : String} : c ∈ s.getStaleConnections ↔
    ∃ seen, s.lastSeen.lookup c = some seen ∧
      STALE_TIMEOUT_SECONDS * 1000000 < s.clock - seen := by
  simp [State.getStaleConnections, mem_items_iff]

/-! ### From one await to the next -/

/-- How a task stops running: at an await, or by calling `disconnect` for a conversation, on behalf
of a socket. -/
inductive Then where
  | await (pc : Pc)
  | disconnect (conversation_id : String) (cause : Option Socket) (after : After)

/-- `for cid in stale: await self.disconnect(cid)`, then the sleep. -/
def evict : List (String × Option Socket) → Round → Then
  | [], next => .await (.sleeping next)
  | (c, cause) :: rest, next => .disconnect c cause (.sweep rest next)

/-- The first loop of `ping_all`, and its second when there is nothing left to ping. -/
def ping : List (String × Socket) → List (String × Option Socket) → Then
  | [], stale => evict stale .evict
  | (c, w) :: rest, stale => .await (.pinging c w rest stale)

namespace State

/-- The `try` of the endpoint is over: the `except` of a `WebSocketDisconnect` calls `disconnect`,
and so does the `finally`. -/
def leave (s : State) (conversation_id : String) (w : Socket) (r : Reply) : State × Then :=
  (s.note [.event .ended w], .disconnect conversation_id (some w)
    (match r with
      | .disconnected => .inFinally conversation_id w
      | _ => .done))

/-- `disconnect` returns or raises. -/
def returns (s : State) (after : After) (raised : Bool) : State × Then :=
  match after with
  | .inFinally c w => (s, .disconnect c (some w) .done)
  | .done => (s, .await .finished)
  | .release lock => (s.setLock lock false, .await .finished)
  | .sweep rest next => (s, if raised then .await .finished else evict rest next)

/-- The end of `disconnect`: close what was popped. -/
def finish (s : State) (d : Cleanup) : State × Then :=
  match d.websocket with
  | some x => (s.note [.loss .connection x d.cause], .await (.closing d))
  | none => s.returns d.after false

end State

/-- What a task does with a reply, up to its next await or call of `disconnect`. -/
def proceed (s : State) : Pc → Reply → State × Then
  | .superseding c w _, _ => (s, .await (.accepting c w))
  | .accepting c w, .done => (s.store c w, .await (.registering c w))
  | .accepting _ w, _ => (s, .await (.refusing w))
  | .registering c w, .done => (s, .await (.receiving c w))
  -- `connections` keeps the socket
  | .registering _ w, _ => (s, .await (.refusing w))
  | .refusing _, _ => (s, .await .finished)
  | .receiving c w, .data v =>
    ({ s with lastSeen := setItem s.lastSeen c s.clock }, .await (.refreshing c w v))
  | .receiving c w, r => s.leave c w r
  | .refreshing c w v, .done =>
    match v.dict? with
    -- `data.get` raises
    | none => s.leave c w .raised
    | some data =>
      match data.lookup "event_type" with
      | some (.str "pong") => (s, .await (.receiving c w))
      | _ => (s, .await (.processing c w))
  | .refreshing c w _, _ => s.leave c w .raised
  | .processing c w, .done => (s, .await (.receiving c w))
  | .processing c w, r => s.leave c w r
  | .sending _ _ lock, .done => (s.setLock lock false, .await .finished)
  | .sending c w lock, _ =>
    (s.note [.event .sendFailed w], .disconnect c (some w) (.release lock))
  | .pinging _ _ rest stale, .done => (s, ping rest stale)
  | .pinging c w rest stale, _ =>
    (s.note [.event .sendFailed w], ping rest (stale ++ [(c, some w)]))
  | .sleeping .ping, _ => (s, ping (items s.connections) [])
  | .sleeping .evict, _ =>
    (s.note ((s.verdicts.filterMap Prod.snd).map (.event .timedOut)), evict s.verdicts .ping)
  | .unregistering d, .done => (s, .await (.reading d))
  | .reading d, .found meta_ =>
    if meta_.entries.isEmpty then s.finish d else (s, .await (.offlining d meta_))
  | .offlining d _, .done => s.finish d
  | .unregistering d, _ | .reading d, _ | .offlining d _, _ => s.returns d.after true
  | .closing d, _ => s.returns d.after false
  | .locking c w lock, _ => (s.setLock lock true, .await (.sending c w lock))
  | .finished, _ => (s, .await .finished)

/-! ### Steps -/

namespace State

/-- The first lines of `disconnect`, up to its first await. -/
def disconnect (s : State) (t : ℕ) (conversation_id : String) (cause : Option Socket)
    (after : After) : State :=
  let websocket := s.connections.lookup conversation_id
  ((s.note (websocket.toList.map fun x => .loss .entry x cause)).forget conversation_id).goto t
    (.unregistering { conversation_id, cause, websocket, after })

def perform (s : State) (t : ℕ) : Then → State
  | .await pc => s.goto t pc
  | .disconnect c cause after => s.disconnect t c cause after

/-- `connect`, up to its first await, in a new endpoint task. -/
def connect (s : State) (conversation_id : String) : State :=
  match s.connections.lookup conversation_id with
  | none => s.spawn (.accepting conversation_id s.created)
  | some existing => ((s.supersede conversation_id).forget conversation_id).spawn
      (.superseding conversation_id s.created existing)

/-- `send_message`, up to its first await, in a new task; without a socket or a lock it returns at
once. A lock that is free is taken at once. -/
def sendMessage (s : State) (conversation_id : String) : State :=
  match s.connections.lookup conversation_id, s.sendLocks.lookup conversation_id with
  | some w, some lock =>
    if s.locked lock then s.spawn (.locking conversation_id w lock)
    else (s.setLock lock true).spawn (.sending conversation_id w lock)
  | _, _ => s

/-- The tracker has an entry for the conversation. -/
def online (s : State) (conversation_id : String) : Bool :=
  conversation_id ∈ s.tracker.chats || !(s.tracker.chat conversation_id).entries.isEmpty

/-- What an awaited call does when it takes effect. -/
def effect (s : State) : Pc → State
  | .registering c w => { s with registry := Function.update s.registry c (some w) }
  | .unregistering d =>
    { s.note ((s.registry d.conversation_id).toList.map fun x => .loss .registration x d.cause) with
      registry := Function.update s.registry d.conversation_id none }
  | .offlining d meta_ =>
    { s.note (if s.online d.conversation_id then
        (s.latest d.conversation_id).toList.map fun x => .loss .chat x d.cause else []) with
      tracker := s.tracker.chatOfflineExec d.conversation_id meta_ }
  | _ => s

/-- The state after an awaited call that has ended in a certain way. -/
def settle (s : State) (pc : Pc) : Reply → State
  | .done | .lost => s.effect pc
  | _ => s

/-- The reply, as the task will see it. -/
def reply (s : State) : Pc → Reply → Reply
  | .reading d, .done => .found (s.tracker.chat d.conversation_id)
  | _, r => r

/-- The call that a task awaits is over. -/
def answer (s : State) (t : ℕ) (r : Reply) : Option State :=
  let pc := (s.tasks t).pc
  if (s.tasks t).inbox.isNone && pc.admits r then
    some { s.settle pc r with
      tasks := Function.update s.tasks t { pc := pc, inbox := some (s.reply pc r) } }
  else none

/-- The reply with which a task can go on. A lock needs no reply; the order of those who wait for it
is left open. -/
def wakes (s : State) (t : ℕ) : Option Reply :=
  match (s.tasks t).pc with
  | .locking _ _ lock => if s.locked lock then none else some .done
  | _ => (s.tasks t).inbox

end State

inductive Action where
  /-- An authenticated socket for a conversation. -/
  | connect (conversation_id : String)
  /-- A push from a consumer. -/
  | sendMessage (conversation_id : String)
  | answer (t : ℕ) (r : Reply)
  | resume (t : ℕ)
  /-- Time goes on. -/
  | clock (now : ℤ)
  /-- The time to live of a registry key runs out. -/
  | expire (conversation_id : String)
  /-- A consumer changes the tracker. -/
  | track (tracker : Tracker)

/-- One step of the gateway. -/
def step (s : State) : Action → Option State
  | .connect c => some (s.connect c)
  | .sendMessage c => some (s.sendMessage c)
  | .answer t r => s.answer t r
  | .resume t => (s.wakes t).map fun r =>
      let (s', next) := proceed s (s.tasks t).pc r
      s'.perform t next
  | .clock now => some { s with clock := now }
  | .expire c => some { s with registry := Function.update s.registry c none }
  | .track tracker => some { s with tracker := tracker }

/-- The tables of the gateway and its tasks are as before. -/
structure SameTables (s s' : State) : Prop where
  connections : s'.connections = s.connections
  lastSeen : s'.lastSeen = s.lastSeen
  sendLocks : s'.sendLocks = s.sendLocks
  tasks : s'.tasks = s.tasks
  created : s'.created = s.created

theorem sameTables_settle (s : State) (pc : Pc) (r : Reply) : SameTables s (s.settle pc r) := by
  have heffect : SameTables s (s.effect pc) := by
    cases pc <;> exact ⟨rfl, rfl, rfl, rfl, rfl⟩
  cases r with
  | done | lost => exact heffect
  | _ => exact ⟨rfl, rfl, rfl, rfl, rfl⟩

/-- An await that is answered: the reply waits, and the task stays where it is. -/
theorem answer_eq_some_iff {s s' : State} {t : ℕ} {r : Reply} : s.answer t r = some s' ↔
    ((s.tasks t).inbox = none ∧ (s.tasks t).pc.admits r = true) ∧
      s' = { s.settle (s.tasks t).pc r with
        tasks := Function.update s.tasks t
          { pc := (s.tasks t).pc, inbox := some (s.reply (s.tasks t).pc r) } } := by
  rw [State.answer, Option.ite_none_right_eq_some, Bool.and_eq_true, Option.isNone_iff_eq_none,
    Option.some_inj, eq_comm (b := s')]

/-- Between two awaits a task leaves the other tasks alone. -/
theorem proceed_tasks (s : State) (pc : Pc) (r : Reply) :
    (proceed s pc r).1.tasks = s.tasks ∧ (proceed s pc r).1.created = s.created := by
  have hreturns : ∀ after raised, (s.returns after raised).1.tasks = s.tasks ∧
      (s.returns after raised).1.created = s.created := by
    intro after raised
    cases after <;> exact ⟨rfl, rfl⟩
  have hfinish : ∀ d, (s.finish d).1.tasks = s.tasks ∧ (s.finish d).1.created = s.created := by
    intro d
    rw [State.finish]
    split
    · exact ⟨rfl, rfl⟩
    · exact hreturns d.after false
  fun_cases proceed s pc r
  all_goals first
    | exact ⟨rfl, rfl⟩
    | exact hfinish _
    | exact hreturns _ _

/-- The cleanup that a task is at. -/
def Pc.cleanup : Pc → Option Cleanup
  | .unregistering d | .reading d | .offlining d _ | .closing d => some d
  | _ => none

/-- What `answer` makes of the task that it answers. -/
theorem task_answer {s s' : State} {t : ℕ} {r : Reply} (hs : step s (.answer t r) = some s') :
    (s.tasks t).inbox = none ∧ (s.tasks t).pc.admits r = true ∧
      s'.tasks t = ⟨(s.tasks t).pc, some (s.reply (s.tasks t).pc r)⟩ := by
  obtain ⟨⟨hinbox, hadmits⟩, rfl⟩ := answer_eq_some_iff.mp hs
  exact ⟨hinbox, hadmits, Function.update_self ..⟩

/-- The task that goes on at an await, or calls `disconnect`. -/
def Then.task (s : State) : Then → Task
  | .await pc => ⟨pc, none⟩
  | .disconnect c cause after => ⟨.unregistering ⟨c, cause, s.connections.lookup c, after⟩, none⟩

theorem perform_tasks (s : State) (t : ℕ) (next : Then) :
    (s.perform t next).tasks = Function.update s.tasks t (next.task s) := by
  cases next <;> rfl

/-- And `resume` of the one that it resumes. -/
theorem task_resume {s s' : State} {t : ℕ} (hs : step s (.resume t) = some s') :
    ∃ r, s.wakes t = some r ∧ s'.tasks t =
      (proceed s (s.tasks t).pc r).2.task (proceed s (s.tasks t).pc r).1 := by
  obtain ⟨r, hr, rfl⟩ := Option.map_eq_some_iff.mp hs
  refine ⟨r, hr, ?_⟩
  rw [perform_tasks]
  exact Function.update_self ..

/-- Whoever waits for a lock needs no reply. -/
theorem inbox_of_wakes {s : State} {t : ℕ} {r : Reply} (hr : s.wakes t = some r) :
    (s.tasks t).inbox = some r ∨ ∃ c w lock, (s.tasks t).pc = .locking c w lock := by
  rw [State.wakes] at hr
  split at hr
  · next c w lock hpc => exact Or.inr ⟨c, w, lock, hpc⟩
  · exact Or.inl hr

/-- A cleanup goes on to its next await, or it returns. -/
theorem proceed_cleanup {s : State} {pc : Pc} {d : Cleanup} (hpc : pc.cleanup = some d)
    (r : Reply) :
    (∃ s' pc', proceed s pc r = (s', .await pc') ∧ pc'.cleanup = some d) ∨
      ∃ raised, proceed s pc r = s.returns d.after raised := by
  have hfinish : (∃ s' pc', s.finish d = (s', .await pc') ∧ pc'.cleanup = some d) ∨
      ∃ raised, s.finish d = s.returns d.after raised := by
    rw [State.finish]
    split
    · exact Or.inl ⟨_, _, rfl, rfl⟩
    · exact Or.inr ⟨false, rfl⟩
  cases pc with
  | unregistering d' =>
    obtain rfl := Option.some.inj hpc
    cases r with
    | done => exact Or.inl ⟨_, _, rfl, rfl⟩
    | _ => exact Or.inr ⟨true, rfl⟩
  | reading d' =>
    obtain rfl := Option.some.inj hpc
    cases r with
    | found meta_ =>
      rw [proceed]
      split
      · exact hfinish
      · exact Or.inl ⟨_, _, rfl, rfl⟩
    | _ => exact Or.inr ⟨true, rfl⟩
  | offlining d' meta_ =>
    obtain rfl := Option.some.inj hpc
    cases r with
    | done => exact hfinish
    | _ => exact Or.inr ⟨true, rfl⟩
  | closing d' =>
    obtain rfl := Option.some.inj hpc
    exact Or.inr ⟨false, rfl⟩
  | _ => cases hpc

/-- The socket that a task is about to put into `connections`, or to send a push to. -/
def Pc.socket : Pc → Option Socket
  | .superseding _ w _ | .accepting _ w | .locking _ w _ | .sending _ w _ => some w
  | _ => none

/-- `s'` is `s` with one more task, which is for a socket. -/
structure Spawned (s s' : State) : Prop where
  created : s'.created = s.created + 1
  tasks : ∀ t ≠ s.created, s'.tasks t = s.tasks t
  socket : (s'.tasks s.created).pc.socket.isSome = true

theorem spawned_spawn {s u : State} {pc : Pc} (htasks : u.tasks = s.tasks)
    (hcreated : u.created = s.created) (hpc : pc.socket.isSome = true) :
    Spawned s (u.spawn pc) where
  created := congrArg (· + 1) hcreated
  tasks t ht := by
    rw [← hcreated] at ht
    exact (Function.update_of_ne ht _ _).trans (congrFun htasks t)
  socket := by
    have htask : (u.spawn pc).tasks u.created = ⟨pc, none⟩ := Function.update_self ..
    rw [← hcreated, htask]
    exact hpc

theorem spawned_connect (s : State) (c : String) : Spawned s (s.connect c) := by
  rw [State.connect]
  split
  all_goals exact spawned_spawn rfl rfl rfl

theorem spawned_sendMessage (s : State) (c : String) :
    s.sendMessage c = s ∨ Spawned s (s.sendMessage c) := by
  rw [State.sendMessage]
  split
  · split
    all_goals exact Or.inr (spawned_spawn rfl rfl rfl)
  · exact Or.inl rfl

/-- A step creates one task or none. -/
theorem spawned_of_step {s s' : State} {a : Action} (hs : step s a = some s') :
    s'.created = s.created ∨ Spawned s s' := by
  cases a with
  | connect c =>
    obtain rfl := Option.some.inj hs
    exact Or.inr (spawned_connect s c)
  | sendMessage c =>
    obtain rfl := Option.some.inj hs
    exact (spawned_sendMessage s c).imp_left (congrArg State.created)
  | answer u r =>
    obtain ⟨-, rfl⟩ := answer_eq_some_iff.mp hs
    exact Or.inl (sameTables_settle ..).created
  | resume u =>
    obtain ⟨r, -, rfl⟩ := Option.map_eq_some_iff.mp hs
    refine Or.inl (Eq.trans ?_ (proceed_tasks s (s.tasks u).pc r).2)
    rcases proceed s (s.tasks u).pc r with ⟨s', next⟩
    cases next <;> rfl
  | clock now | expire c | track tracker =>
    obtain rfl := Option.some.inj hs
    exact Or.inl rfl

theorem created_le_of_step {s s' : State} {a : Action} (hs : step s a = some s') :
    s.created ≤ s'.created := by
  obtain hcreated | hspawned := spawned_of_step hs
  · exact hcreated.ge
  · rw [hspawned.created]
    exact Nat.le_succ _

/-- A step leaves the tasks alone, but for the one that is resumed and the one that gets a reply. -/
theorem task_step_eq {s s' : State} {a : Action} {t : ℕ} (ht : t < s.created ∨ s'.created ≤ t)
    (hresume : a ≠ .resume t) (hanswer : ∀ r, a ≠ .answer t r) (hs : step s a = some s') :
    s'.tasks t = s.tasks t := by
  have hspawned : Spawned s s' → s'.tasks t = s.tasks t := by
    intro h
    have hcreated := h.created
    exact h.tasks t (by omega)
  cases a with
  | connect c =>
    obtain rfl := Option.some.inj hs
    exact hspawned (spawned_connect s c)
  | sendMessage c =>
    obtain rfl := Option.some.inj hs
    exact (spawned_sendMessage s c).elim (fun heq => by rw [heq]) hspawned
  | answer u r =>
    obtain ⟨-, rfl⟩ := answer_eq_some_iff.mp hs
    have hne : t ≠ u := fun heq => hanswer r (by rw [heq])
    exact Function.update_of_ne hne _ _
  | resume u =>
    obtain ⟨r, -, rfl⟩ := Option.map_eq_some_iff.mp hs
    obtain ⟨htasks, -⟩ := proceed_tasks s (s.tasks u).pc r
    have hne : t ≠ u := fun heq => hresume (by rw [heq])
    rw [perform_tasks]
    exact (Function.update_of_ne hne _ _).trans (congrFun htasks t)
  | clock now | expire c | track tracker =>
    obtain rfl := Option.some.inj hs
    rfl

/-- The tasks that do not exist yet. -/
theorem idle_of_step {s s' : State} {a : Action}
    (h : ∀ t, s.created ≤ t → s.tasks t = ⟨.finished, none⟩)
    (hs : step s a = some s') {t : ℕ} (ht : s'.created ≤ t) :
    s'.tasks t = ⟨.finished, none⟩ := by
  have hidle := h t ((created_le_of_step hs).trans ht)
  have hresume : a ≠ .resume t := by
    rintro rfl
    obtain ⟨r, hr, -⟩ := task_resume hs
    simp [State.wakes, hidle] at hr
  have hanswer : ∀ r, a ≠ .answer t r := by
    rintro r rfl
    have hadmits := (task_answer hs).2.1
    rw [hidle] at hadmits
    cases r <;> cases hadmits
  exact (task_step_eq (Or.inr ht) hresume hanswer hs).trans hidle

/-- A task that is not resumed keeps its place. -/
theorem task_step_of_ne {s s' : State} {a : Action} {t : ℕ} (ht : t < s.created)
    (ha : a ≠ .resume t) (hs : step s a = some s') : s'.tasks t = s.tasks t ∨
      (∃ r, (s.tasks t).pc.admits r = true) ∧ (s'.tasks t).pc = (s.tasks t).pc := by
  by_cases hanswer : ∃ r, a = .answer t r
  · obtain ⟨r, rfl⟩ := hanswer
    obtain ⟨⟨-, hadmits⟩, rfl⟩ := answer_eq_some_iff.mp hs
    exact Or.inr ⟨⟨r, hadmits⟩, by simp⟩
  · exact Or.inl (task_step_eq (Or.inl ht) ha (fun r heq => hanswer ⟨r, heq⟩) hs)

theorem pc_step_of_ne {s s' : State} {a : Action} {t : ℕ} (ht : t < s.created)
    (ha : a ≠ .resume t) (hs : step s a = some s') : (s'.tasks t).pc = (s.tasks t).pc := by
  obtain h | ⟨-, h⟩ := task_step_of_ne ht ha hs
  · rw [h]
  · exact h

/-! ### Which sockets are in use -/

/-- The sockets in `connections`, and those that are about to be put there or sent to, are among
`P`. -/
structure State.Uses (P : Socket → Prop) (s : State) : Prop where
  connections : ∀ c w, s.connections.lookup c = some w → P w
  tasks : ∀ t w, (s.tasks t).pc.socket = some w → P w

section Sockets

variable {s s' : State} {P Q : Socket → Prop}

theorem State.Uses.mono (h : s.Uses P) (hPQ : ∀ w, P w → Q w) : s.Uses Q :=
  ⟨fun c w hw => hPQ w (h.connections c w hw), fun t w hw => hPQ w (h.tasks t w hw)⟩

/-- A task that is suspended. -/
theorem State.Uses.goto (h : s.Uses P) (t : ℕ) {pc : Pc} (htasks : s'.tasks = s.tasks)
    (hconn : ∀ c w, s'.connections.lookup c = some w → P w)
    (hpc : ∀ w, pc.socket = some w → P w) : (s'.goto t pc).Uses P := by
  refine ⟨hconn, fun u w hw => ?_⟩
  simp only [State.goto, Function.update_apply, htasks] at hw
  split at hw
  · exact hpc w hw
  · exact h.tasks u w hw

theorem State.Uses.spawn (h : s.Uses P) {pc : Pc} (htasks : s'.tasks = s.tasks)
    (hconn : ∀ c w, s'.connections.lookup c = some w → P w)
    (hpc : ∀ w, pc.socket = some w → P w) : (s'.spawn pc).Uses P := by
  have hgoto := h.goto s'.created htasks hconn hpc
  exact ⟨hgoto.connections, hgoto.tasks⟩

theorem lookup_of_lookup_forget {c c' : String} {w : Socket}
    (h : (s.forget c).connections.lookup c' = some w) : s.connections.lookup c' = some w := by
  by_cases hc : c' = c
  · rw [hc, State.forget, AList.lookup_erase] at h
    exact absurd h.symm (Option.some_ne_none w)
  · rwa [State.forget, AList.lookup_erase_ne hc] at h

/-- The socket of the task that a task becomes. -/
def Then.socket : Then → Option Socket
  | .await pc => pc.socket
  | .disconnect .. => none

/-- From one await to the next, a task uses its own socket and no other. -/
structure KeepsSockets (s : State) (own : Option Socket) (p : State × Then) : Prop where
  connections : ∀ c w, p.1.connections.lookup c = some w →
    s.connections.lookup c = some w ∨ own = some w
  next : ∀ w, p.2.socket = some w → own = some w

theorem KeepsSockets.of_eq {own : Option Socket} {p : State × Then}
    (hconn : p.1.connections = s.connections) (hnext : ∀ w, p.2.socket = some w → own = some w) :
    KeepsSockets s own p :=
  ⟨fun _ _ h => Or.inl (hconn ▸ h), hnext⟩

theorem evict_socket (list : List (String × Option Socket)) (next : Round) :
    (evict list next).socket = none := by
  cases list <;> rfl

theorem ping_socket (list : List (String × Socket)) (stale : List (String × Option Socket)) :
    (ping list stale).socket = none := by
  cases list with
  | nil => exact evict_socket ..
  | cons => rfl

theorem returns_keepsSockets (s : State) (own : Option Socket) (after : After) (raised : Bool) :
    KeepsSockets s own (s.returns after raised) := by
  cases after with
  | inFinally | done | release => exact .of_eq rfl fun w h => absurd h.symm (Option.some_ne_none w)
  | sweep rest next =>
    refine .of_eq rfl fun w h => absurd (h.symm.trans ?_) (Option.some_ne_none w)
    cases raised with
    | true => rfl
    | false => exact evict_socket ..

theorem finish_keepsSockets (s : State) (own : Option Socket) (d : Cleanup) :
    KeepsSockets s own (s.finish d) := by
  rw [State.finish]
  split
  · exact .of_eq rfl fun w h => absurd h.symm (Option.some_ne_none w)
  · exact returns_keepsSockets ..

theorem proceed_keepsSockets (s : State) (pc : Pc) (r : Reply) :
    KeepsSockets s pc.socket (proceed s pc r) := by
  have hnone : ∀ {next : Then}, next.socket = none →
      ∀ w, next.socket = some w → pc.socket = some w :=
    fun hnext w h => absurd (h.symm.trans hnext) (Option.some_ne_none w)
  fun_cases proceed s pc r
  case case2 c w =>
    -- `accept` has returned
    refine ⟨fun c' w' h => ?_, fun w' h => absurd h.symm (Option.some_ne_none w')⟩
    rw [State.store, lookup_setItem] at h
    split at h
    · exact Or.inr h
    · exact Or.inl h
  all_goals first
    | exact .of_eq rfl fun _ h => h
    | exact .of_eq rfl (hnone rfl)
    | exact .of_eq rfl (hnone (evict_socket ..))
    | exact .of_eq rfl (hnone (ping_socket ..))
    | exact finish_keepsSockets ..
    | exact returns_keepsSockets ..

/-- **The sockets in use** are those that were in use before a step, and the one that it creates. -/
theorem State.Uses.step (h : s.Uses P) {a : Action} (hs : step s a = some s')
    (hnew : s.created < s'.created → P s.created) : s'.Uses P := by
  cases a with
  | connect c =>
    obtain rfl := Option.some.inj hs
    rw [State.connect] at hnew ⊢
    split at hnew
    · exact h.spawn rfl h.connections fun w hw => Option.some.inj hw ▸ hnew (Nat.lt_succ_self _)
    · exact h.spawn rfl (fun c' w hw => h.connections c' w (lookup_of_lookup_forget hw))
        fun w hw => Option.some.inj hw ▸ hnew (Nat.lt_succ_self _)
  | sendMessage c =>
    obtain rfl := Option.some.inj hs
    rw [State.sendMessage]
    split
    · next w lock hw _ =>
      split
      · exact h.spawn rfl h.connections fun x hx => Option.some.inj hx ▸ h.connections c w hw
      · exact h.spawn rfl h.connections fun x hx => Option.some.inj hx ▸ h.connections c w hw
    · exact h
  | answer t r =>
    obtain ⟨-, rfl⟩ := answer_eq_some_iff.mp hs
    have htables := sameTables_settle s (s.tasks t).pc r
    refine ⟨fun c w hw => ?_, fun u w hw => ?_⟩
    · rw [htables.connections] at hw
      exact h.connections c w hw
    · simp only [Function.update_apply] at hw
      split at hw
      · exact h.tasks t w hw
      · exact h.tasks u w hw
  | resume t =>
    obtain ⟨r, -, rfl⟩ := Option.map_eq_some_iff.mp hs
    have hkeeps := proceed_keepsSockets s (s.tasks t).pc r
    obtain ⟨htasks, -⟩ := proceed_tasks s (s.tasks t).pc r
    rcases hp : proceed s (s.tasks t).pc r with ⟨s', next⟩
    rw [hp] at hkeeps htasks
    have hconn : ∀ c w, s'.connections.lookup c = some w → P w :=
      fun c w hw => (hkeeps.connections c w hw).elim (h.connections c w) (h.tasks t w)
    cases next with
    | await pc => exact h.goto t htasks hconn fun w hw => h.tasks t w (hkeeps.next w hw)
    | disconnect c cause after =>
      exact h.goto t htasks (fun c' w hw => hconn c' w (lookup_of_lookup_forget hw))
        fun w hw => absurd hw.symm (Option.some_ne_none w)
  | clock now | expire c | track tracker =>
    obtain rfl := Option.some.inj hs
    exact ⟨h.connections, h.tasks⟩

/-- The sockets in use are those of tasks. -/
theorem uses_of_reachable (h : Transition.Reachable step (· = .start) s) :
    s.Uses (· < s.created) := by
  refine h.invariant (I := fun s => s.Uses (· < s.created)) ?_ fun s a s' hs hstep => ?_
  · rintro _ rfl
    refine ⟨fun c w hw => absurd hw.symm (Option.some_ne_none w), fun t w hw => ?_⟩
    simp only [State.start] at hw
    split at hw <;> exact absurd hw.symm (Option.some_ne_none w)
  · have hle := created_le_of_step hstep
    exact (hs.mono fun w hw => Nat.lt_of_lt_of_le hw hle).step hstep id

/-- A socket that is not in use will not be used again. -/
theorem uses_ne_of_run {w : Socket} (h : s.Uses (· ≠ w)) (hw : w < s.created) {as : List Action}
    (hrun : Transition.run step s as = some s') : s'.Uses (· ≠ w) := by
  refine (Transition.always_of_invariant (I := fun s => s.Uses (· ≠ w) ∧ w < s.created)
    (fun s a s' hs hstep => ?_) ⟨h, hw⟩ as).run hrun |>.1
  exact ⟨hs.1.step hstep fun _ heq => Nat.ne_of_lt hs.2 heq.symm,
    Nat.lt_of_lt_of_le hs.2 (created_le_of_step hstep)⟩

end Sockets

end Gateway

end TitanChat
