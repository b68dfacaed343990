import Mathlib.Data.String.Basic
import Mathlib.Logic.Function.Basic
import TitanChat.Internal.Json
import TitanChat.Internal.Transition

/-!
# The real-time consumer

`consumer/kafka_consumer.py`: one loop that reads Kafka records and one worker task per
conversation, with a bounded queue between them and a semaphore that caps the workers.

## Scheduling

Tasks switch only at an `await` that really suspends. So a state says which task runs, `cpu`, and
only that task can take a step; when it suspends, `cpu` is `none` and any task that is ready may be
resumed. What a task does between two awaits is therefore never interleaved with another task.

A handler is a black box here: while it runs it may suspend any number of times, and it ends by
returning or by raising.

## Queues and workers

A queue object and its worker are created together and named by one number. `_conv_queues` and
`_conv_workers` map a conversation to that number. A worker that has left its loop keeps its queue
object, and so does a loop that is suspended in a `put` on it.

The sentinel is `None`, which is also what `orjson.loads` makes of the text `null`, so a queue holds
JSON values. The `offset` of an item is the position of its record in the input; it is not read by
the program and is absent from a sentinel that `_dispatch` put.

## Main definitions

* `Config.delivery`: what the loop makes of one record before it touches a queue
* `State`, `Action`, `step`: the tasks and their steps
* `Stepped`: the same steps, one constructor for each thing a step can do

## Main results

* `stepped_of_step`: a step does one of these things
-/

namespace TitanChat

/-- The keys of the table `_HANDLERS`. -/
inductive EventType where
  | chatStart
  | incomingMessage
  | outgoingMessage
  | transferToAgent
  | chatEnd
  | ack
  deriving DecidableEq, Repr

/-- The table `_HANDLERS`. -/
def handlers : String → Option EventType
  | "chat_start" => some .chatStart
  | "incoming_message" => some .incomingMessage
  | "outgoing_message" => some .outgoingMessage
  | "transfer_to_agent" => some .transferToAgent
  | "chat_end" => some .chatEnd
  | "ack" => some .ack
  | _ => none

/-- What `_dispatch` finds for a payload. -/
inductive Selected where
  /-- A known event type. -/
  | handler (event_type : EventType)
  /-- No handler: the message is logged and dropped. -/
  | unknown
  /-- The event type cannot be looked up: a `TypeError`. -/
  | unhashable
  deriving DecidableEq, Repr

/-- The first lines of `_dispatch`: `payload.get("event_type") or ""`, then the table. -/
def select (payload : Dict Json) : Selected :=
  match payload.lookup "event_type" with
  | some (.str event_type) => (handlers event_type).elim .unknown .handler
  | some v => if v.truthy && !v.hashable then .unhashable else .unknown
  | none => .unknown

namespace Consumer

/-- A Kafka record as the consumer sees it, with no deserialisation. -/
structure Record where
  key : Option ByteArray
  value : Option ByteArray
  headers : List (String × Option ByteArray)

/-- The three context variables of `shared/observability/trace.py`. -/
structure Trace where
  trace_id : String
  conversation_id : String
  event_type : String
  deriving DecidableEq

/-- `_MAX_QUEUE_SIZE`, `_MAX_CONCURRENT_CONVS`, and `orjson.loads`, `none` when it raises. -/
structure Config where
  maxQueueSize : ℕ
  maxConcurrentConvs : ℕ
  loads : ByteArray → Option Json

/-! ### One record -/

/-- `msg.key.decode("utf-8") if msg.key else ""`; `none` when decoding raises. -/
def Record.conversationId (msg : Record) : Option String :=
  match msg.key with
  | none => some ""
  | some key => if key.isEmpty then some "" else String.fromUTF8? key

/-- The header dictionary, in order; `none` when a value is missing or is not UTF-8. -/
def Record.headerValues (msg : Record) : Option (List (String × String)) :=
  msg.headers.mapM fun h => h.2.bind fun v => (String.fromUTF8? v).map (h.1, ·)

/-- `headers.get(name, "-")`: of a repeated header the last value counts. -/
def headerOr (headers : List (String × String)) (name : String) : String :=
  ((headers.reverse.find? fun h => h.1 = name).map Prod.snd).getD "-"

/-- The arguments of `set_trace`, for a record that gets so far. -/
def Record.trace (msg : Record) : Option Trace :=
  match msg.conversationId with
  | none => none
  | some conversation_id =>
    if conversation_id = "" then none
    else if msg.value.isNone then none
    else msg.headerValues.map fun headers =>
      { trace_id := headerOr headers "trace_id"
        conversation_id := conversation_id
        event_type := headerOr headers "event_type" }

/-- A decoder that knows the texts of a table. -/
def loadsOf (texts : List (String × Json)) (value : ByteArray) : Option Json :=
  -- as lists, which evaluate byte by byte
  (texts.find? fun text => text.1.toUTF8.data.toList = value.data.toList).map Prod.snd

/-- The conversation and payload of a record that reaches a queue. -/
def Config.delivery (cfg : Config) (msg : Record) : Option (String × Json) :=
  msg.trace.bind fun trace =>
    (msg.value.bind cfg.loads).map fun payload => (trace.conversation_id, payload)

/-! ### Tasks -/

/-- An entry of a queue. -/
structure Item where
  offset : Option ℕ
  value : Json

/-- The sentinel that `_dispatch` puts after a `chat_end`. -/
def Item.sentinel : Item := { offset := none, value := .null }

/-- Where a worker is. `getting` and `putting` are awaits that suspend only when they must. -/
inductive WorkerPc where
  /-- Created by `create_task`, not run yet. -/
  | created
  /-- Suspended in `async with _worker_semaphore`. -/
  | acquiring
  /-- At `await queue.get()`. -/
  | getting
  /-- In the handler of an item. -/
  | handling (item : Item)
  /-- At `await q.put(None)`, after a `chat_end`. -/
  | putting (q : ℕ)
  /-- Left the loop on a sentinel. -/
  | exited
  /-- Left the loop by an exception. -/
  | died

/-- Where the loop is. -/
inductive LoopPc where
  /-- At the head of `async for`. -/
  | fetching
  /-- At `await _conv_queues[conversation_id].put(payload)`. -/
  | putting (q : ℕ) (item : Item)

/-- A worker task with its queue object and its copy of the context. -/
structure Worker where
  conversation_id : String
  queue : List Item
  pc : WorkerPc
  ctx : Trace

/-- A task. -/
inductive Task where
  | loop
  | worker (w : ℕ)
  deriving DecidableEq

structure State where
  /-- The records that the loop has not read yet. -/
  input : List Record
  /-- How many it has read. -/
  offset : ℕ
  loop : LoopPc
  ctx : Trace
  workers : ℕ → Worker
  /-- How many workers have been created. -/
  created : ℕ
  /-- `_conv_queues`. -/
  convQueues : String → Option ℕ
  /-- `_conv_workers`. -/
  convWorkers : String → Option ℕ
  /-- The value of `_worker_semaphore`. -/
  permits : ℕ
  cpu : Option Task
  /-- The offsets whose payload has been put on a queue. -/
  enqueued : List ℕ
  /-- The items handed to `_dispatch`, with their conversations. -/
  dispatched : List (String × Item)

/-- The context variables before the first `set_trace`. -/
def Trace.default : Trace := ⟨"-", "-", "-"⟩

/-- The state after `start_consumer`. -/
def State.start (cfg : Config) (records : List Record) : State where
  input := records
  offset := 0
  loop := .fetching
  ctx := .default
  workers _ := { conversation_id := "", queue := [], pc := .exited, ctx := .default }
  created := 0
  convQueues _ := none
  convWorkers _ := none
  permits := cfg.maxConcurrentConvs
  cpu := none
  enqueued := []
  dispatched := []

/-- `asyncio.Queue.full`: a queue with bound `0` is never full. -/
def Config.full (cfg : Config) (queue : List Item) : Bool :=
  0 < cfg.maxQueueSize && cfg.maxQueueSize ≤ queue.length

/-- The worker has not left its loop. -/
def WorkerPc.live : WorkerPc → Bool
  | .exited | .died => false
  | _ => true

namespace State

/-- Change one worker. -/
def modify (s : State) (w : ℕ) (f : Worker → Worker) : State :=
  { s with workers := Function.update s.workers w (f (s.workers w)) }

def setPc (s : State) (w : ℕ) (pc : WorkerPc) : State := s.modify w ({ · with pc := pc })

/-- `put_nowait`. -/
def enqueue (s : State) (q : ℕ) (item : Item) : State :=
  s.modify q fun wk => { wk with queue := wk.queue ++ [item] }

/-- The task can go on when it gets the processor. -/
def ready (cfg : Config) (s : State) : Task → Bool
  | .loop =>
    match s.loop with
    | .fetching => !s.input.isEmpty
    | .putting q _ => !cfg.full (s.workers q).queue
  | .worker w =>
    match (s.workers w).pc with
    | .created | .handling _ => true
    | .acquiring => 0 < s.permits
    | .getting => !(s.workers w).queue.isEmpty
    | .putting q => !cfg.full (s.workers q).queue
    | .exited | .died => false

/-- The loop has read a record whose payload goes to `conversation_id`: get or create the queue and
the worker. A new task copies the context of its creator. -/
def deliver (s : State) (conversation_id : String) (item : Item) : State :=
  match s.convQueues conversation_id with
  | some q => { s with loop := .putting q item }
  | none =>
    { s with
      workers := Function.update s.workers s.created
        { conversation_id := conversation_id, queue := [], pc := .created, ctx := s.ctx }
      created := s.created + 1
      convQueues := Function.update s.convQueues conversation_id (some s.created)
      convWorkers := Function.update s.convWorkers conversation_id (some s.created)
      loop := .putting s.created item }

/-- The body of `_consume_loop` for one record, up to its `await`. A record that is skipped, or that
raises before the `put`, leaves the loop at its head. -/
def read (cfg : Config) (s : State) (msg : Record) (rest : List Record) : State :=
  let s' := { s with input := rest, offset := s.offset + 1, ctx := msg.trace.getD s.ctx }
  match cfg.delivery msg with
  | none => s'
  | some (conversation_id, payload) =>
    s'.deliver conversation_id { offset := some s.offset, value := payload }

/-- The cleanup after the sentinel: drop the queue and the worker, give the permit back. -/
def exit (s : State) (w : ℕ) : State :=
  let c := (s.workers w).conversation_id
  { s.setPc w .exited with
    convQueues := Function.update s.convQueues c none
    convWorkers := Function.update s.convWorkers c none
    permits := s.permits + 1
    cpu := none }

/-- An exception outside of the `try`: only the semaphore is released. -/
def die (s : State) (w : ℕ) : State :=
  { s.setPc w .died with permits := s.permits + 1, cpu := none }

/-- Hand an item to `_dispatch`, up to the first suspension of the handler. -/
def dispatch (s : State) (w : ℕ) (item : Item) (payload : Dict Json) : State :=
  let s' := { s with dispatched := s.dispatched ++ [((s.workers w).conversation_id, item)] }
  match select payload with
  | .handler _ => s'.setPc w (.handling item)
  | .unknown | .unhashable => s'.setPc w .getting

/-- `queue.get()` with an item at the head of the queue, and what the worker does with it. -/
def take (s : State) (w : ℕ) (item : Item) (rest : List Item) : State :=
  let s' := s.modify w ({ · with queue := rest })
  match item.value with
  | .null => s'.exit w
  | v =>
    match v.dict? with
    | none => s'.die w
    | some payload => s'.dispatch w item payload

end State

/-- The item is a `chat_end` event. -/
def Item.isChatEnd (item : Item) : Bool :=
  match item.value.dict? with
  | none => false
  | some payload => select payload = .handler .chatEnd

/-- What the running worker does next. -/
inductive WorkerAction where
  | acquire
  | get
  | handlerSuspends
  | handlerReturns
  | handlerRaises
  | putSentinel
  deriving DecidableEq

/-- What the running loop does next. `awaitRecord` is a suspension in `async for`. -/
inductive LoopAction where
  | read
  | awaitRecord
  | put
  deriving DecidableEq

inductive Action where
  | resume (t : Task)
  | loop (a : LoopAction)
  | worker (a : WorkerAction)
  deriving DecidableEq

/-- A step of the running loop. -/
def loopStep (cfg : Config) (s : State) : LoopAction → Option State
  | .read =>
    match s.loop, s.input with
    | .fetching, msg :: rest => some (s.read cfg msg rest)
    | _, _ => none
  | .awaitRecord =>
    match s.loop with
    | .fetching => some { s with cpu := none }
    | .putting _ _ => none
  | .put =>
    match s.loop with
    | .fetching => none
    | .putting q item =>
      if cfg.full (s.workers q).queue then some { s with cpu := none }
      else some { s.enqueue q item with
        loop := .fetching
        enqueued := s.enqueued ++ item.offset.toList }

/-- A step of the running worker `w`. -/
def workerStep (cfg : Config) (s : State) (w : ℕ) : WorkerAction → Option State
  | .acquire =>
    match (s.workers w).pc with
    | .created | .acquiring =>
      if 0 < s.permits then some { s.setPc w .getting with permits := s.permits - 1 }
      else some { s.setPc w .acquiring with cpu := none }
    | _ => none
  | .get =>
    match (s.workers w).pc, (s.workers w).queue with
    | .getting, [] => some { s with cpu := none }
    | .getting, item :: rest => some (s.take w item rest)
    | _, _ => none
  | .handlerSuspends =>
    match (s.workers w).pc with
    | .handling _ => some { s with cpu := none }
    | _ => none
  | .handlerReturns =>
    match (s.workers w).pc with
    | .handling item =>
      if item.isChatEnd then
        match s.convQueues (s.workers w).conversation_id with
        | some q => some (s.setPc w (.putting q))
        | none => some (s.setPc w .getting)
      else some (s.setPc w .getting)
    | _ => none
  | .handlerRaises =>
    match (s.workers w).pc with
    | .handling _ => some (s.setPc w .getting)
    | _ => none
  | .putSentinel =>
    match (s.workers w).pc with
    | .putting q =>
      if cfg.full (s.workers q).queue then some { s with cpu := none }
      else some ((s.enqueue q .sentinel).setPc w .getting)
    | _ => none

/-- One step of the consumer. -/
def step (cfg : Config) (s : State) : Action → Option State
  | .resume t => if s.cpu = none ∧ s.ready cfg t then some { s with cpu := some t } else none
  | .loop a => if s.cpu = some .loop then loopStep cfg s a else none
  | .worker a =>
    match s.cpu with
    | some (.worker w) => workerStep cfg s w a
    | _ => none

/-! ### What a step can do -/

namespace State

@[simp] theorem modify_workers (s : State) (w v : ℕ) (f : Worker → Worker) :
    (s.modify w f).workers v = if v = w then f (s.workers w) else s.workers v := by
  simp [modify, Function.update_apply]

/-- A worker that takes its last item and leaves is one change of the worker. -/
theorem workers_exit (s : State) (w : ℕ) (rest : List Item) :
    ((s.modify w ({ · with queue := rest })).exit w).workers =
      (s.modify w ({ · with queue := rest, pc := .exited })).workers := by
  simp [exit, setPc, modify]

theorem workers_die (s : State) (w : ℕ) (rest : List Item) :
    ((s.modify w ({ · with queue := rest })).die w).workers =
      (s.modify w ({ · with queue := rest, pc := .died })).workers := by
  simp [die, setPc, modify]

/-- So is one that puts an item on its own queue. -/
theorem setPc_enqueue (s : State) (w : ℕ) (item : Item) (pc : WorkerPc) :
    (s.enqueue w item).setPc w pc =
      s.modify w fun wk => { wk with queue := wk.queue ++ [item], pc := pc } := by
  simp [enqueue, setPc, modify]

end State

/-- Everything a step can do, with its conditions and its result. -/
inductive Stepped (cfg : Config) (s : State) : Action → State → Prop
  | resumed {t : Task} (idle : s.cpu = none) (ready : s.ready cfg t) :
      Stepped cfg s (.resume t) { s with cpu := some t }
  | skipped {msg : Record} {rest : List Record} (cpu : s.cpu = some .loop)
      (loop : s.loop = .fetching) (input : s.input = msg :: rest)
      (skip : cfg.delivery msg = none) :
      Stepped cfg s (.loop .read)
        { s with input := rest, offset := s.offset + 1, ctx := msg.trace.getD s.ctx }
  | delivered {msg : Record} {rest : List Record} {c : String} {payload : Json} {q : ℕ}
      (cpu : s.cpu = some .loop) (loop : s.loop = .fetching) (input : s.input = msg :: rest)
      (delivery : cfg.delivery msg = some (c, payload)) (known : s.convQueues c = some q) :
      Stepped cfg s (.loop .read)
        { s with
          input := rest
          offset := s.offset + 1
          ctx := msg.trace.getD s.ctx
          loop := .putting q { offset := s.offset, value := payload } }
  | created {msg : Record} {rest : List Record} {c : String} {payload : Json}
      (cpu : s.cpu = some .loop) (loop : s.loop = .fetching) (input : s.input = msg :: rest)
      (delivery : cfg.delivery msg = some (c, payload)) (new : s.convQueues c = none) :
      Stepped cfg s (.loop .read)
        { s with
          input := rest
          offset := s.offset + 1
          ctx := msg.trace.getD s.ctx
          workers := Function.update s.workers s.created
            { conversation_id := c, queue := [], pc := .created, ctx := msg.trace.getD s.ctx }
          created := s.created + 1
          convQueues := Function.update s.convQueues c s.created
          convWorkers := Function.update s.convWorkers c s.created
          loop := .putting s.created { offset := s.offset, value := payload } }
  | awaitsRecord (cpu : s.cpu = some .loop) (loop : s.loop = .fetching) :
      Stepped cfg s (.loop .awaitRecord) { s with cpu := none }
  | putWaits {q : ℕ} {item : Item} (cpu : s.cpu = some .loop) (loop : s.loop = .putting q item)
      (full : cfg.full (s.workers q).queue) : Stepped cfg s (.loop .put) { s with cpu := none }
  | put {q : ℕ} {item : Item} (cpu : s.cpu = some .loop) (loop : s.loop = .putting q item)
      (room : ¬cfg.full (s.workers q).queue) :
      Stepped cfg s (.loop .put)
        { s.enqueue q item with
          loop := .fetching
          enqueued := s.enqueued ++ item.offset.toList }
  | acquired {w : ℕ} (cpu : s.cpu = some (.worker w))
      (pc : (s.workers w).pc = .created ∨ (s.workers w).pc = .acquiring) (free : 0 < s.permits) :
      Stepped cfg s (.worker .acquire) { s.setPc w .getting with permits := s.permits - 1 }
  | acquireWaits {w : ℕ} (cpu : s.cpu = some (.worker w))
      (pc : (s.workers w).pc = .created ∨ (s.workers w).pc = .acquiring)
      (exhausted : s.permits = 0) :
      Stepped cfg s (.worker .acquire) { s.setPc w .acquiring with cpu := none }
  | getWaits {w : ℕ} (cpu : s.cpu = some (.worker w)) (pc : (s.workers w).pc = .getting)
      (empty : (s.workers w).queue = []) : Stepped cfg s (.worker .get) { s with cpu := none }
  | exited {w : ℕ} {item : Item} {rest : List Item} (cpu : s.cpu = some (.worker w))
      (pc : (s.workers w).pc = .getting) (queue : (s.workers w).queue = item :: rest)
      (null : item.value = .null) :
      Stepped cfg s (.worker .get) ((s.modify w ({ · with queue := rest })).exit w)
  | died {w : ℕ} {item : Item} {rest : List Item} (cpu : s.cpu = some (.worker w))
      (pc : (s.workers w).pc = .getting) (queue : (s.workers w).queue = item :: rest)
      (notNull : item.value ≠ .null) (notDict : item.value.dict? = none) :
      Stepped cfg s (.worker .get) ((s.modify w ({ · with queue := rest })).die w)
  | handed {w : ℕ} {item : Item} {rest : List Item} {payload : Dict Json} {e : EventType}
      (cpu : s.cpu = some (.worker w)) (pc : (s.workers w).pc = .getting)
      (queue : (s.workers w).queue = item :: rest) (dict : item.value.dict? = some payload)
      (handler : select payload = .handler e) :
      Stepped cfg s (.worker .get)
        { s.modify w ({ · with queue := rest, pc := .handling item }) with
          dispatched := s.dispatched ++ [((s.workers w).conversation_id, item)] }
  | dropped {w : ℕ} {item : Item} {rest : List Item} {payload : Dict Json}
      (cpu : s.cpu = some (.worker w)) (pc : (s.workers w).pc = .getting)
      (queue : (s.workers w).queue = item :: rest) (dict : item.value.dict? = some payload)
      (noHandler : ∀ e, select payload ≠ .handler e) :
      Stepped cfg s (.worker .get)
        { s.modify w ({ · with queue := rest, pc := .getting }) with
          dispatched := s.dispatched ++ [((s.workers w).conversation_id, item)] }
  | suspended {w : ℕ} {item : Item} (cpu : s.cpu = some (.worker w))
      (pc : (s.workers w).pc = .handling item) :
      Stepped cfg s (.worker .handlerSuspends) { s with cpu := none }
  | ended {w : ℕ} {item : Item} {a : WorkerAction} (cpu : s.cpu = some (.worker w))
      (pc : (s.workers w).pc = .handling item)
      (how : a = .handlerRaises ∨ (a = .handlerReturns ∧
        (item.isChatEnd = false ∨ s.convQueues (s.workers w).conversation_id = none))) :
      Stepped cfg s (.worker a) (s.setPc w .getting)
  | chatEnded {w q : ℕ} {item : Item} (cpu : s.cpu = some (.worker w))
      (pc : (s.workers w).pc = .handling item) (chatEnd : item.isChatEnd = true)
      (queue : s.convQueues (s.workers w).conversation_id = some q) :
      Stepped cfg s (.worker .handlerReturns) (s.setPc w (.putting q))
  | sentinelWaits {w q : ℕ} (cpu : s.cpu = some (.worker w)) (pc : (s.workers w).pc = .putting q)
      (full : cfg.full (s.workers q).queue) :
      Stepped cfg s (.worker .putSentinel) { s with cpu := none }
  | sentinelPut {w q : ℕ} (cpu : s.cpu = some (.worker w)) (pc : (s.workers w).pc = .putting q)
      (room : ¬cfg.full (s.workers q).queue) :
      Stepped cfg s (.worker .putSentinel) ((s.enqueue q .sentinel).setPc w .getting)

variable {cfg : Config} {s s' : State}

theorem stepped_of_loopStep {a : LoopAction} (cpu : s.cpu = some .loop)
    (h : loopStep cfg s a = some s') : Stepped cfg s (.loop a) s' := by
  cases a with
  | read =>
    cases hloop : s.loop with
    | putting q item => simp [loopStep, hloop] at h
    | fetching =>
      cases hin : s.input with
      | nil => simp [loopStep, hloop, hin] at h
      | cons msg rest =>
        simp only [loopStep, hloop, hin, Option.some.injEq] at h
        subst h
        cases hd : cfg.delivery msg with
        | none => simpa [State.read, hd, hloop] using Stepped.skipped cpu hloop hin hd
        | some d =>
          obtain ⟨c, payload⟩ := d
          cases hq : s.convQueues c with
          | none => simpa [State.read, hd, State.deliver, hq] using
              Stepped.created cpu hloop hin hd hq
          | some q => simpa [State.read, hd, State.deliver, hq] using
              Stepped.delivered cpu hloop hin hd hq
  | awaitRecord =>
    rw [loopStep] at h
    split at h
    · next hloop => obtain rfl := Option.some.inj h; exact .awaitsRecord cpu hloop
    · exact absurd h (by simp)
  | put =>
    rw [loopStep] at h
    split at h
    · exact absurd h (by simp)
    · next q item hloop =>
      split at h
      · next hfull => obtain rfl := Option.some.inj h; exact .putWaits cpu hloop hfull
      · next hroom => obtain rfl := Option.some.inj h; exact .put cpu hloop hroom

theorem stepped_of_take {w : ℕ} {item : Item} {rest : List Item}
    (cpu : s.cpu = some (.worker w)) (pc : (s.workers w).pc = .getting)
    (queue : (s.workers w).queue = item :: rest) :
    Stepped cfg s (.worker .get) (s.take w item rest) := by
  by_cases hnull : item.value = .null
  · simpa only [State.take, hnull] using Stepped.exited cpu pc queue hnull
  · have htake : s.take w item rest =
        match item.value.dict? with
        | none => (s.modify w ({ · with queue := rest })).die w
        | some payload => (s.modify w ({ · with queue := rest })).dispatch w item payload := by
      unfold State.take
      split
      · next h => exact absurd h hnull
      · rfl
    rw [htake]
    cases hdict : item.value.dict? with
    | none => exact .died cpu pc queue hnull hdict
    | some payload =>
      cases hsel : select payload with
      | handler e =>
        have : Stepped cfg s _ _ := .handed cpu pc queue hdict hsel
        simpa [State.dispatch, hsel, State.setPc, State.modify] using this
      | unknown =>
        have : Stepped cfg s _ _ := .dropped cpu pc queue hdict (by simp [hsel])
        simpa [State.dispatch, hsel, State.setPc, State.modify] using this
      | unhashable =>
        have : Stepped cfg s _ _ := .dropped cpu pc queue hdict (by simp [hsel])
        simpa [State.dispatch, hsel, State.setPc, State.modify] using this

theorem stepped_of_workerStep {w : ℕ} {a : WorkerAction} (cpu : s.cpu = some (.worker w))
    (h : workerStep cfg s w a = some s') : Stepped cfg s (.worker a) s' := by
  cases a with
  | acquire =>
    have hpc : (s.workers w).pc = .created ∨ (s.workers w).pc = .acquiring := by
      cases hpc : (s.workers w).pc <;> simp [workerStep, hpc] at h ⊢
    have h : (if 0 < s.permits then some { s.setPc w .getting with permits := s.permits - 1 }
        else some { s.setPc w .acquiring with cpu := none }) = some s' := by
      rcases hpc with hpc | hpc <;> simpa only [workerStep, hpc] using h
    split at h
    · next hfree => obtain rfl := Option.some.inj h; exact .acquired cpu hpc hfree
    · next hnone =>
      obtain rfl := Option.some.inj h
      exact .acquireWaits cpu hpc (Nat.eq_zero_of_not_pos hnone)
  | get =>
    cases hpc : (s.workers w).pc <;> simp only [workerStep, hpc, reduceCtorEq] at h
    cases hq : (s.workers w).queue with
    | nil =>
      obtain rfl := Option.some.inj (by simpa only [hq] using h)
      exact .getWaits cpu hpc hq
    | cons item rest =>
      obtain rfl := Option.some.inj (by simpa only [hq] using h)
      exact stepped_of_take cpu hpc hq
  | handlerSuspends =>
    cases hpc : (s.workers w).pc <;> simp only [workerStep, hpc, reduceCtorEq] at h
    obtain rfl := Option.some.inj h
    exact .suspended cpu hpc
  | handlerReturns =>
    cases hpc : (s.workers w).pc <;> simp only [workerStep, hpc, reduceCtorEq] at h
    split at h
    · next hend =>
      cases hq : s.convQueues (s.workers w).conversation_id with
      | none =>
        obtain rfl := Option.some.inj (by simpa only [hq] using h)
        exact .ended cpu hpc (Or.inr ⟨rfl, Or.inr hq⟩)
      | some q =>
        obtain rfl := Option.some.inj (by simpa only [hq] using h)
        exact .chatEnded cpu hpc hend hq
    · next hend =>
      obtain rfl := Option.some.inj h
      exact .ended cpu hpc (Or.inr ⟨rfl, Or.inl (by simpa using hend)⟩)
  | handlerRaises =>
    cases hpc : (s.workers w).pc <;> simp only [workerStep, hpc, reduceCtorEq] at h
    obtain rfl := Option.some.inj h
    exact .ended cpu hpc (Or.inl rfl)
  | putSentinel =>
    cases hpc : (s.workers w).pc <;> simp only [workerStep, hpc, reduceCtorEq] at h
    split at h
    · next hfull => obtain rfl := Option.some.inj h; exact .sentinelWaits cpu hpc hfull
    · next hroom => obtain rfl := Option.some.inj h; exact .sentinelPut cpu hpc hroom

/-- **A step does one of the things of `Stepped`.** -/
theorem stepped_of_step {a : Action} (h : step cfg s a = some s') : Stepped cfg s a s' := by
  cases a with
  | resume t =>
    obtain ⟨⟨hcpu, hready⟩, h⟩ := Option.ite_none_right_eq_some.mp h
    obtain rfl := Option.some.inj h
    exact .resumed hcpu hready
  | loop a =>
    obtain ⟨hcpu, h⟩ := Option.ite_none_right_eq_some.mp h
    exact stepped_of_loopStep hcpu h
  | worker a =>
    cases hcpu : s.cpu with
    | none => simp [step, hcpu] at h
    | some t =>
      cases t with
      | loop => simp [step, hcpu] at h
      | worker w => exact stepped_of_workerStep hcpu (by simpa only [step, hcpu] using h)

end Consumer

end TitanChat
