import Mathlib.Data.Finset.Image
import TitanChat.ConsumerProgress
import TitanChat.WorkerShutdown

/-!
# Room for every sentinel

Two bounded resources are waited for in the consumer: room in a queue and a permit of the
semaphore. A worker that puts a sentinel waits for room that only itself can make, and a loop that
waits for room in the queue of a worker without a permit may wait for ever.

Both are excluded by a condition on the records alone. At most as many conversations occur as there
are permits, and behind every `chat_end` fewer records of its conversation follow than a queue can
hold. This module proves that the condition is enough.

## The count behind the invariant

`pending c` is what the records still have for conversation `c`: the item that the loop is putting,
and what it has not read. As long as no sentinel is queued, a queue followed by what is pending is a
suffix of the items of its conversation. So when a worker takes a `chat_end`, the condition bounds
what can still be queued behind it; from then on the count only goes down, except for one sentinel.

## Main definitions

* `Config.itemsFrom`, `Config.conversations`: what the records have for the queues
* `Config.Roomy`: the condition
* `DeadlockFree`: the property
* `RoomInv`: the invariant

## Main results

* `RoomInv.step`
* `RoomInv.deadlockFree`
-/

namespace TitanChat

namespace Consumer

/-! ### What the records have for a conversation -/

/-- The items of conversation `c` among records of which the first has offset `k`, in order. -/
def Config.itemsFrom (cfg : Config) (c : String) : ℕ → List Record → List Item
  | _, [] => []
  | k, msg :: rest =>
    match cfg.delivery msg with
    | some (d, payload) =>
      if d = c then { offset := some k, value := payload } :: cfg.itemsFrom c (k + 1) rest
      else cfg.itemsFrom c (k + 1) rest
    | none => cfg.itemsFrom c (k + 1) rest

/-- All items of conversation `c`. -/
def Config.items (cfg : Config) (c : String) (records : List Record) : List Item :=
  cfg.itemsFrom c 0 records

/-- The conversations that occur. -/
def Config.conversations (cfg : Config) (records : List Record) : Finset String :=
  ((records.filterMap cfg.delivery).map Prod.fst).toFinset

/-- **The condition.** There is a permit for every conversation, and room in its queue for
everything that follows a `chat_end`, and for one more item. -/
structure Config.Roomy (cfg : Config) (records : List Record) : Prop where
  permits : (cfg.conversations records).card ≤ cfg.maxConcurrentConvs
  room : ∀ c item later, item :: later <:+ cfg.items c records → item.isChatEnd →
    later.length < cfg.maxQueueSize

variable {cfg : Config} {records : List Record} {s s' : State}

theorem mem_conversations {c : String} :
    c ∈ cfg.conversations records ↔ ∃ msg ∈ records, ∃ payload,
      cfg.delivery msg = some (c, payload) := by
  simp only [Config.conversations, List.mem_toFinset, List.mem_map, List.mem_filterMap]
  constructor
  · rintro ⟨⟨d, payload⟩, ⟨msg, hmsg, hd⟩, rfl⟩
    exact ⟨msg, hmsg, payload, hd⟩
  · rintro ⟨msg, hmsg, payload, hd⟩
    exact ⟨(c, payload), ⟨msg, hmsg, hd⟩, rfl⟩

theorem itemsFrom_skip {c : String} {msg : Record} (h : cfg.delivery msg = none) (k : ℕ)
    (rest : List Record) : cfg.itemsFrom c k (msg :: rest) = cfg.itemsFrom c (k + 1) rest := by
  rw [Config.itemsFrom, h]

theorem itemsFrom_deliver {c d : String} {payload : Json} {msg : Record}
    (h : cfg.delivery msg = some (d, payload)) (k : ℕ) (rest : List Record) :
    cfg.itemsFrom c k (msg :: rest) =
      (if d = c then [{ offset := some k, value := payload }] else []) ++
        cfg.itemsFrom c (k + 1) rest := by
  simp only [Config.itemsFrom, h]
  split <;> rfl

theorem itemsFrom_cons_suffix (c : String) (k : ℕ) (msg : Record) (rest : List Record) :
    cfg.itemsFrom c (k + 1) rest <:+ cfg.itemsFrom c k (msg :: rest) := by
  cases h : cfg.delivery msg with
  | none => rw [itemsFrom_skip h]
  | some d => rw [itemsFrom_deliver h]; exact List.suffix_append ..

/-- An item of a conversation knows its record. -/
theorem exists_record_of_mem {c : String} {x : Item} {k : ℕ} {rs : List Record}
    (h : x ∈ cfg.itemsFrom c k rs) :
    ∃ i msg, x.offset = some (k + i) ∧ rs[i]? = some msg ∧
      cfg.delivery msg = some (c, x.value) := by
  induction rs generalizing k with
  | nil => exact absurd h (by simp [Config.itemsFrom])
  | cons msg rest ih =>
    have htail : x ∈ cfg.itemsFrom c (k + 1) rest → ∃ i m, x.offset = some (k + i) ∧
        (msg :: rest)[i]? = some m ∧ cfg.delivery m = some (c, x.value) := by
      intro hx
      obtain ⟨i, m, hoff, hm, hd⟩ := ih hx
      exact ⟨i + 1, m, by rw [hoff]; congr 1; omega, by simpa using hm, hd⟩
    cases hd : cfg.delivery msg with
    | none => rw [itemsFrom_skip hd] at h; exact htail h
    | some d =>
      rw [itemsFrom_deliver hd, List.mem_append] at h
      rcases h with h | h
      · split at h
        · next hdc =>
          obtain rfl := List.mem_singleton.mp h
          exact ⟨0, msg, rfl, rfl, by rw [hd, ← hdc]⟩
        · exact absurd h (by simp)
      · exact htail h

theorem items_ne_nil {c : String} : cfg.items c records ≠ [] ↔ c ∈ cfg.conversations records := by
  rw [mem_conversations, Config.items]
  generalize 0 = k
  induction records generalizing k with
  | nil => simp [Config.itemsFrom]
  | cons msg rest ih =>
    cases hd : cfg.delivery msg with
    | none => rw [itemsFrom_skip hd, ih]; simp [hd]
    | some d =>
      obtain ⟨d, payload⟩ := d
      rw [itemsFrom_deliver hd]
      by_cases hdc : d = c
      · exact iff_of_true (by simp [hdc]) ⟨msg, List.mem_cons_self .., payload, by rw [hd, hdc]⟩
      · rw [if_neg hdc, List.nil_append, ih]
        simp [hd, hdc]

namespace State

/-- What the loop is putting on the queue of conversation `c`. -/
def inFlight (s : State) (c : String) : List Item :=
  match s.loop with
  | .fetching => []
  | .putting q item => if (s.workers q).conversation_id = c then [item] else []

/-- What the records still have for conversation `c`. -/
def pending (cfg : Config) (s : State) (c : String) : List Item :=
  s.inFlight c ++ cfg.itemsFrom c s.offset s.input

end State

/-- The loop reads an item: it is on its way now, and nothing else changes. -/
theorem pending_of_read {msg : Record} {rest : List Record} {c : String} {payload : Json} {q : ℕ}
    (hloop : s.loop = .fetching) (hinput : s.input = msg :: rest)
    (hd : cfg.delivery msg = some (c, payload)) (hinput' : s'.input = rest)
    (hoffset : s'.offset = s.offset + 1)
    (hloop' : s'.loop = .putting q { offset := s.offset, value := payload })
    (hconv : (s'.workers q).conversation_id = c) (d : String) :
    s'.pending cfg d = s.pending cfg d := by
  simp only [State.pending, State.inFlight, hloop, hloop', hinput, hinput', hoffset, hconv,
    itemsFrom_deliver hd, List.nil_append]

/-- The loop puts its item, which is no longer pending. -/
theorem pending_of_put {q : ℕ} {item : Item} (hloop : s.loop = .putting q item)
    (hinput : s'.input = s.input) (hoffset : s'.offset = s.offset) (hloop' : s'.loop = .fetching)
    (c : String) : s.pending cfg c =
      (if (s.workers q).conversation_id = c then [item] else []) ++ s'.pending cfg c := by
  simp only [State.pending, State.inFlight, hloop, hloop', hinput, hoffset, List.nil_append]

/-- A live worker of the conversation whose item is being put is the worker of that queue. -/
theorem TableInv.eq_of_putting (ht : TableInv s) {q : ℕ} {item : Item}
    (hloop : s.loop = .putting q item) {v : ℕ} (hv : (s.workers v).pc.live)
    (hconv : (s.workers q).conversation_id = (s.workers v).conversation_id) : v = q :=
  (ht.loopQueue q item hloop).2 v (by rw [hconv]; exact ht.own v hv)

/-- The action is one of the loop, or resumes it. -/
def Action.movesLoop : Action → Bool
  | .resume .loop | .loop _ => true
  | _ => false

namespace State

@[simp] theorem inFlight_modify (s : State) {w : ℕ} {f : Worker → Worker}
    (hf : (f (s.workers w)).conversation_id = (s.workers w).conversation_id) (c : String) :
    (s.modify w f).inFlight c = s.inFlight c := by
  cases hl : s.loop with
  | fetching => simp [inFlight, hl]
  | putting q item =>
    have hq : ((s.modify w f).workers q).conversation_id = (s.workers q).conversation_id := by
      rw [modify_workers]
      split
      · next h => rw [hf, h]
      · rfl
    simp only [inFlight, modify_loop, hl, hq]

/-- How much is queued for a worker or still on its way to it. -/
def load (cfg : Config) (s : State) (w : ℕ) : ℕ :=
  (s.workers w).queue.length + (s.pending cfg (s.workers w).conversation_id).length

end State

/-- What the condition on the records keeps true. -/
structure RoomInv (cfg : Config) (records : List Record) (s : State) : Prop where
  unread : ∀ msg ∈ s.input, msg ∈ records
  rest : ∀ c, cfg.itemsFrom c s.offset s.input <:+ cfg.items c records
  named : ∀ w, (s.workers w).pc.live →
    (s.workers w).conversation_id ∈ cfg.conversations records
  undead : ∀ w, (s.workers w).pc ≠ .died
  /-- Room for the sentinel that is being put. -/
  putting : ∀ w q, (s.workers w).pc = .putting q → s.load cfg w < cfg.maxQueueSize
  /-- Room for the sentinel that may follow. -/
  ending : ∀ w item, (s.workers w).pc = .handling item → item.isChatEnd →
    s.load cfg w < cfg.maxQueueSize
  /-- Once a sentinel is queued, everything fits. -/
  sealed : ∀ w, (s.workers w).pc.live → .sentinel ∈ (s.workers w).queue →
    s.load cfg w ≤ cfg.maxQueueSize
  /-- Before that, nothing of the conversation is missing. -/
  unsealed : ∀ w, (s.workers w).pc.live → .sentinel ∉ (s.workers w).queue →
    (s.workers w).queue ++ s.pending cfg (s.workers w).conversation_id <:+
      cfg.items (s.workers w).conversation_id records
  /-- The queue of a worker that has exited has room for the item that is being put. -/
  closed : ∀ q item, s.loop = .putting q item → (s.workers q).pc.live = false →
    ¬cfg.full (s.workers q).queue

/-- What the invariant says of one worker. -/
structure WorkerRoom (cfg : Config) (records : List Record) (s : State) (w : ℕ) : Prop where
  named : (s.workers w).pc.live → (s.workers w).conversation_id ∈ cfg.conversations records
  undead : (s.workers w).pc ≠ .died
  putting : ∀ q, (s.workers w).pc = .putting q → s.load cfg w < cfg.maxQueueSize
  ending : ∀ item, (s.workers w).pc = .handling item → item.isChatEnd →
    s.load cfg w < cfg.maxQueueSize
  sealed : (s.workers w).pc.live → .sentinel ∈ (s.workers w).queue →
    s.load cfg w ≤ cfg.maxQueueSize
  unsealed : (s.workers w).pc.live → .sentinel ∉ (s.workers w).queue →
    (s.workers w).queue ++ s.pending cfg (s.workers w).conversation_id <:+
      cfg.items (s.workers w).conversation_id records

/-- Nothing of it is lost while the worker stays as it is, and what is pending for it. -/
theorem WorkerRoom.of_eq {w : ℕ} (h : WorkerRoom cfg records s w)
    (hworker : s'.workers w = s.workers w)
    (hpending : (s.workers w).pc.live → s'.pending cfg (s.workers w).conversation_id =
      s.pending cfg (s.workers w).conversation_id) : WorkerRoom cfg records s' w := by
  have hload : (s.workers w).pc.live → s'.load cfg w = s.load cfg w := fun hlive => by
    rw [State.load, hworker, hpending hlive, State.load]
  refine ⟨fun hlive => ?_, ?_, fun q hpc => ?_, fun item hpc => ?_, fun hlive hin => ?_,
    fun hlive hin => ?_⟩
  · rw [hworker] at hlive ⊢
    exact h.named hlive
  · rw [hworker]
    exact h.undead
  · rw [hworker] at hpc
    rw [hload (by rw [hpc]; rfl)]
    exact h.putting q hpc
  · rw [hworker] at hpc
    rw [hload (by rw [hpc]; rfl)]
    exact h.ending item hpc
  · rw [hworker] at hlive hin
    rw [hload hlive]
    exact h.sealed hlive hin
  · rw [hworker] at hlive hin ⊢
    rw [hpending hlive]
    exact h.unsealed hlive hin

/-- Nothing is asked of a worker that has exited. -/
theorem WorkerRoom.of_exited {w : ℕ} (h : (s.workers w).pc = .exited) :
    WorkerRoom cfg records s w where
  named hlive := absurd hlive (by simp [h, WorkerPc.live])
  undead := by simp [h]
  putting q hpc := absurd hpc (by simp [h])
  ending item hpc := absurd hpc (by simp [h])
  sealed hlive := absurd hlive (by simp [h, WorkerPc.live])
  unsealed hlive := absurd hlive (by simp [h, WorkerPc.live])

namespace RoomInv

theorem worker (h : RoomInv cfg records s) (w : ℕ) : WorkerRoom cfg records s w where
  named := h.named w
  undead := h.undead w
  putting := h.putting w
  ending := h.ending w
  sealed := h.sealed w
  unsealed := h.unsealed w

/-- **One worker at a time.** All but `w` stay as they are, and what is pending for the live ones
among them. -/
theorem of_worker (h : RoomInv cfg records s) (w : ℕ) (hunread : ∀ msg ∈ s'.input, msg ∈ records)
    (hrest : ∀ c, cfg.itemsFrom c s'.offset s'.input <:+ cfg.items c records)
    (hold : ∀ v, v ≠ w → s'.workers v = s.workers v)
    (hpending : ∀ v, v ≠ w → (s.workers v).pc.live →
      s'.pending cfg (s.workers v).conversation_id = s.pending cfg (s.workers v).conversation_id)
    (hself : WorkerRoom cfg records s' w)
    (hclosed : ∀ q item, s'.loop = .putting q item → (s'.workers q).pc.live = false →
      ¬cfg.full (s'.workers q).queue) : RoomInv cfg records s' := by
  have hall : ∀ v, WorkerRoom cfg records s' v := by
    intro v
    rcases eq_or_ne v w with rfl | hvw
    · exact hself
    · exact (h.worker v).of_eq (hold v hvw) (hpending v hvw)
  exact ⟨hunread, hrest, fun v => (hall v).named, fun v => (hall v).undead,
    fun v => (hall v).putting, fun v => (hall v).ending, fun v => (hall v).sealed,
    fun v => (hall v).unsealed, hclosed⟩

theorem start (cfg : Config) (records : List Record) :
    RoomInv cfg records (.start cfg records) where
  unread _ hm := hm
  rest _ := List.suffix_rfl
  named w hw := by simp [State.start, WorkerPc.live] at hw
  undead w := by simp [State.start]
  putting w q hw := by simp [State.start] at hw
  ending w item hw := by simp [State.start] at hw
  sealed w hw := by simp [State.start, WorkerPc.live] at hw
  unsealed w hw := by simp [State.start, WorkerPc.live] at hw
  closed q item hl := by simp [State.start] at hl

/-- A live worker moves on, and perhaps its queue changes. -/
theorem modify (h : RoomInv cfg records s) {w : ℕ} {f : Worker → Worker}
    (hw : (s.workers w).pc.live)
    (hconv : (f (s.workers w)).conversation_id = (s.workers w).conversation_id)
    (hlive : (f (s.workers w)).pc.live)
    (hput : ∀ q, (f (s.workers w)).pc = .putting q →
      (f (s.workers w)).queue.length + (s.pending cfg (s.workers w).conversation_id).length <
        cfg.maxQueueSize)
    (hend : ∀ item, (f (s.workers w)).pc = .handling item → item.isChatEnd →
      (f (s.workers w)).queue.length + (s.pending cfg (s.workers w).conversation_id).length <
        cfg.maxQueueSize)
    (hsealed : .sentinel ∈ (f (s.workers w)).queue →
      (f (s.workers w)).queue.length + (s.pending cfg (s.workers w).conversation_id).length ≤
        cfg.maxQueueSize)
    (hunsealed : .sentinel ∉ (f (s.workers w)).queue →
      (f (s.workers w)).queue ++ s.pending cfg (s.workers w).conversation_id <:+
        cfg.items (s.workers w).conversation_id records) :
    RoomInv cfg records (s.modify w f) := by
  have hnew : (s.modify w f).workers w = f (s.workers w) := by
    rw [State.modify_workers, if_pos rfl]
  have hold : ∀ v, v ≠ w → (s.modify w f).workers v = s.workers v := fun v hv => by
    rw [State.modify_workers, if_neg hv]
  have hpending : ∀ c, (s.modify w f).pending cfg c = s.pending cfg c := fun c => by
    rw [State.pending, State.inFlight_modify s hconv]
    rfl
  have hself : (s.modify w f).load cfg w =
      (f (s.workers w)).queue.length + (s.pending cfg (s.workers w).conversation_id).length := by
    rw [State.load, hnew, hpending, hconv]
  refine h.of_worker w h.unread h.rest hold (fun v _ _ => hpending _)
    ⟨fun _ => ?_, ?_, fun q hv => ?_, fun item hv => ?_, fun _ hin => ?_, fun _ hin => ?_⟩
    (fun q item hq hv => ?_)
  · rw [hnew, hconv]
    exact h.named w hw
  · rw [hnew]
    intro hd
    exact absurd hlive (by simp [hd, WorkerPc.live])
  · rw [hnew] at hv
    rw [hself]
    exact hput q hv
  · rw [hnew] at hv
    rw [hself]
    exact hend item hv
  · rw [hnew] at hin
    rw [hself]
    exact hsealed hin
  · rw [hnew] at hin ⊢
    rw [hpending, hconv]
    exact hunsealed hin
  · rcases eq_or_ne q w with rfl | hqw
    · rw [hnew, hlive] at hv
      exact absurd hv (by simp)
    · rw [hold q hqw] at hv ⊢
      exact h.closed q item hq hv

/-- A live worker moves on with its queue as it was. -/
theorem setPc (h : RoomInv cfg records s) {w : ℕ} (hw : (s.workers w).pc.live) (pc : WorkerPc)
    (hlive : pc.live) (hput : ∀ q, pc = .putting q → s.load cfg w < cfg.maxQueueSize)
    (hend : ∀ item, pc = .handling item → item.isChatEnd → s.load cfg w < cfg.maxQueueSize) :
    RoomInv cfg records (s.setPc w pc) :=
  h.modify (f := ({ · with pc := pc })) hw rfl hlive hput hend (h.sealed w hw) (h.unsealed w hw)

/-- The workers stay as they are, and so does what is pending for each conversation. -/
theorem of_pending (h : RoomInv cfg records s) (hworkers : s'.workers = s.workers)
    (hpending : ∀ c, s'.pending cfg c = s.pending cfg c) (hunread : ∀ msg ∈ s'.input, msg ∈ records)
    (hrest : ∀ c, cfg.itemsFrom c s'.offset s'.input <:+ cfg.items c records)
    (hclosed : ∀ q item, s'.loop = .putting q item → (s.workers q).pc.live = false →
      ¬cfg.full (s.workers q).queue) : RoomInv cfg records s' where
  unread := hunread
  rest := hrest
  named w := by rw [hworkers]; exact h.named w
  undead w := by rw [hworkers]; exact h.undead w
  putting w q := by rw [State.load, hworkers, hpending]; exact h.putting w q
  ending w item := by rw [State.load, hworkers, hpending]; exact h.ending w item
  sealed w := by rw [State.load, hworkers, hpending]; exact h.sealed w
  unsealed w := by rw [hworkers, hpending]; exact h.unsealed w
  closed q item := by rw [hworkers]; exact hclosed q item

/-- An item for a conversation without a worker is read. -/
theorem create (h : RoomInv cfg records s) {msg : Record} {rest : List Record} {c : String}
    {payload : Json} (hloop : s.loop = .fetching) (hinput : s.input = msg :: rest)
    (hd : cfg.delivery msg = some (c, payload)) (ctx : Trace) :
    RoomInv cfg records
      { s with
        input := rest
        offset := s.offset + 1
        workers := Function.update s.workers s.created
          { conversation_id := c, queue := [], pc := .created, ctx := ctx }
        loop := .putting s.created { offset := s.offset, value := payload } } := by
  set s' : State := { s with
    input := rest
    offset := s.offset + 1
    workers := Function.update s.workers s.created
      { conversation_id := c, queue := [], pc := .created, ctx := ctx }
    loop := .putting s.created { offset := s.offset, value := payload } } with hs'
  have hnew : s'.workers s.created =
      { conversation_id := c, queue := [], pc := .created, ctx := ctx } := Function.update_self ..
  have hpending : ∀ d, s'.pending cfg d = s.pending cfg d :=
    pending_of_read hloop hinput hd rfl rfl rfl (by rw [hnew])
  have hold : ∀ v, v ≠ s.created → s'.workers v = s.workers v :=
    fun v hv => Function.update_of_ne hv ..
  have hpend : s.pending cfg c <:+ cfg.items c records := by
    simpa [State.pending, State.inFlight, hloop] using h.rest c
  have hmsg : msg ∈ records := h.unread msg (by rw [hinput]; exact List.mem_cons_self ..)
  refine h.of_worker s.created
    (fun m hm => h.unread m (by rw [hinput]; exact List.mem_cons_of_mem _ hm)) (fun d => ?_) hold
    (fun v _ _ => hpending _)
    ⟨fun _ => ?_, ?_, fun q hv => ?_, fun item hv => ?_, fun _ hin => ?_, fun _ _ => ?_⟩
    (fun q item hq hv => ?_)
  · exact (itemsFrom_cons_suffix d s.offset msg rest).trans (hinput ▸ h.rest d)
  · rw [hnew]
    exact mem_conversations.mpr ⟨msg, hmsg, payload, hd⟩
  · simp [hnew]
  · rw [hnew] at hv
    exact absurd hv (by simp)
  · rw [hnew] at hv
    exact absurd hv (by simp)
  · rw [hnew] at hin
    exact absurd hin (by simp)
  · rw [hnew, hpending]
    exact hpend
  · simp only [hs', LoopPc.putting.injEq] at hq
    obtain ⟨rfl, -⟩ := hq
    rw [hnew] at hv
    exact absurd hv (by simp [WorkerPc.live])

/-- The loop puts its item: what is pending moves to the queue. -/
theorem put (h : RoomInv cfg records s) (ht : TableInv s) {q : ℕ} {item : Item}
    (hloop : s.loop = .putting q item) (hitem : item ≠ .sentinel) (enqueued : List ℕ) :
    RoomInv cfg records { s.enqueue q item with loop := .fetching, enqueued := enqueued } := by
  set s' : State := { s.enqueue q item with loop := .fetching, enqueued := enqueued } with hs'
  have hq : s'.workers q = { s.workers q with queue := (s.workers q).queue ++ [item] } := by
    simp [hs', State.enqueue]
  have hold : ∀ v, v ≠ q → s'.workers v = s.workers v := by
    intro v hv
    simp [hs', State.enqueue, hv]
  have hpending : ∀ c, s.pending cfg c = _ ++ s'.pending cfg c :=
    pending_of_put hloop rfl rfl rfl
  have hpendq := hpending (s.workers q).conversation_id
  rw [if_pos rfl] at hpendq
  have hpend : ∀ v, v ≠ q → (s.workers v).pc.live →
      s'.pending cfg (s.workers v).conversation_id =
        s.pending cfg (s.workers v).conversation_id := by
    intro v hv hlive
    rw [hpending, if_neg fun heq => hv (ht.eq_of_putting hloop hlive heq), List.nil_append]
  have hload : s'.load cfg q = s.load cfg q := by
    simp only [State.load, hq, hpendq, List.length_append, List.length_cons, List.length_nil]
    omega
  refine h.of_worker q h.unread h.rest hold hpend
    ⟨fun hv => ?_, ?_, fun u hv => ?_, fun x hv => ?_, fun hv hin => ?_, fun hv hin => ?_⟩
    (fun u x hu => ?_)
  · rw [hq] at hv ⊢
    exact h.named q hv
  · rw [hq]
    exact h.undead q
  · rw [hq] at hv
    rw [hload]
    exact h.putting q u hv
  · rw [hq] at hv
    rw [hload]
    exact h.ending q x hv
  · rw [hq] at hv hin
    rw [hload]
    exact h.sealed q hv
      ((List.mem_append.mp hin).resolve_right fun hs => hitem (List.mem_singleton.mp hs).symm)
  · rw [hq] at hv hin ⊢
    have hsuf := h.unsealed q hv fun hs => hin (List.mem_append_left _ hs)
    rw [hpendq] at hsuf
    rwa [List.append_assoc]
  · exact absurd hu (by simp [hs'])

/-- A worker reads a sentinel and exits. -/
theorem exit (h : RoomInv cfg records s) {w : ℕ} {rest : List Item}
    (hw : (s.workers w).pc.live) (hq : (s.workers w).queue = .sentinel :: rest) :
    RoomInv cfg records ((s.modify w ({ · with queue := rest })).exit w) := by
  set s' := (s.modify w ({ · with queue := rest })).exit w with hs'
  have hnew : s'.workers w = { s.workers w with queue := rest, pc := .exited } := by
    simp [hs', State.exit, State.setPc]
  have hold : ∀ v, v ≠ w → s'.workers v = s.workers v := by
    intro v hv
    simp [hs', State.exit, State.setPc, hv]
  have hpending : ∀ c, s'.pending cfg c = s.pending cfg c := by
    intro c
    have hflight := (s.modify w ({ · with queue := rest })).inFlight_modify (w := w)
      (f := ({ · with pc := .exited })) rfl c
    rw [s.inFlight_modify (w := w) (f := ({ · with queue := rest })) rfl c] at hflight
    rw [State.pending, State.pending, ← hflight]
    rfl
  refine h.of_worker w h.unread h.rest hold (fun v _ _ => hpending _)
    (.of_exited (by rw [hnew])) (fun q item hloop hv => ?_)
  have hloop' : s.loop = .putting q item := hloop
  rcases eq_or_ne q w with rfl | hqw
  · -- the sentinel was counted, and so is the item on its way
    have hroom := h.sealed q hw (by rw [hq]; exact List.mem_cons_self ..)
    have hflight : s.inFlight (s.workers q).conversation_id = [item] := by
      simp [State.inFlight, hloop']
    rw [State.load, State.pending, hflight, hq] at hroom
    rw [hnew, Config.full]
    simp only [List.length_append, List.length_cons, List.length_nil] at hroom
    simp only [Bool.and_eq_true, decide_eq_true_eq]
    omega
  · rw [hold q hqw] at hv ⊢
    exact h.closed q item hloop' hv

/-- A worker takes an item that is not a sentinel. -/
theorem take (h : RoomInv cfg records s) (hroomy : cfg.Roomy records) {w : ℕ} {item : Item}
    {rest : List Item} (hw : (s.workers w).pc.live) (hq : (s.workers w).queue = item :: rest)
    (hitem : item ≠ .sentinel) (pc : WorkerPc) (hlive : pc.live) (hput : ∀ q, pc ≠ .putting q)
    (hpc : ∀ x, pc = .handling x → x = item) :
    RoomInv cfg records (s.modify w ({ · with queue := rest, pc := pc })) := by
  have hsealed : .sentinel ∈ (s.workers w).queue →
      rest.length + (s.pending cfg (s.workers w).conversation_id).length < cfg.maxQueueSize := by
    intro hin
    have := h.sealed w hw hin
    rw [State.load, hq, List.length_cons] at this
    omega
  have hunsealed : .sentinel ∉ (s.workers w).queue →
      item :: (rest ++ s.pending cfg (s.workers w).conversation_id) <:+
        cfg.items (s.workers w).conversation_id records := by
    intro hin
    have := h.unsealed w hw hin
    rwa [hq, List.cons_append] at this
  refine h.modify hw rfl hlive (fun q hp => absurd hp (hput q)) (fun x hx hchat => ?_)
    (fun hin => ?_) (fun hin => ?_)
  · obtain rfl := hpc x hx
    by_cases hs : .sentinel ∈ (s.workers w).queue
    · exact hsealed hs
    · rw [← List.length_append]
      exact hroomy.room _ _ _ (hunsealed hs) hchat
  · exact (hsealed (by rw [hq]; exact List.mem_cons_of_mem _ hin)).le
  · have hnot : .sentinel ∉ (s.workers w).queue := by
      rw [hq, List.mem_cons]
      rintro (hs | hs)
      · exact hitem hs.symm
      · exact hin hs
    exact (List.suffix_cons ..).trans (hunsealed hnot)

/-- A worker puts its sentinel. -/
theorem putSentinel (h : RoomInv cfg records s) {w : ℕ} (hpc : (s.workers w).pc = .putting w) :
    RoomInv cfg records ((s.enqueue w .sentinel).setPc w .getting) := by
  have hroom := h.putting w w hpc
  rw [State.setPc_enqueue]
  refine h.modify (by rw [hpc]; rfl) rfl rfl (by simp) (by simp) (fun _ => ?_)
    (fun hin => absurd (List.mem_append_right _ (List.mem_singleton_self _)) hin)
  rw [State.load] at hroom
  simp only [List.length_append, List.length_cons, List.length_nil]
  omega

/-- A queue in `_conv_queues` has a live worker. -/
theorem live_of_known (h : RoomInv cfg records s) (ht : TableInv s) {c : String} {q : ℕ}
    (hq : s.convQueues c = some q) : (s.workers q).pc.live := by
  have hexited : (s.workers q).pc ≠ .exited := (ht.queues c q hq).2
  have hdied : (s.workers q).pc ≠ .died := h.undead q
  cases hpc : (s.workers q).pc with
  | exited => exact absurd hpc hexited
  | died => exact absurd hpc hdied
  | created | acquiring | getting | handling item | putting q' => rfl

/-- A worker that puts its sentinel finds room. -/
theorem room (h : RoomInv cfg records s) {w : ℕ} (hpc : (s.workers w).pc = .putting w) :
    cfg.full (s.workers w).queue = false := by
  have hroom := h.putting w w hpc
  have hle : (s.workers w).queue.length ≤ s.load cfg w := Nat.le_add_right ..
  simp only [Config.full, Bool.and_eq_false_iff, decide_eq_false_iff_not]
  omega

/-- **The invariant is kept by every step.** -/
theorem step (h : RoomInv cfg records s) (ht : TableInv s) (ho : OffsetInv cfg s)
    (hroomy : cfg.Roomy records) {a : Action} (hs : Consumer.step cfg s a = some s') :
    RoomInv cfg records s' := by
  have hhead : ∀ {w item rest}, (s.workers w).queue = item :: rest →
      item = .sentinel ∨ item.IsObject := fun {w item rest} hq =>
    ho.items w item (by rw [hq]; exact List.mem_cons_self ..)
  cases stepped_of_step hs with
  | resumed | awaitsRecord | putWaits | getWaits | suspended | sentinelWaits =>
    exact { h with }
  | @skipped msg rest cpu loop input skip =>
    refine h.of_pending rfl (fun c => ?_) (fun m hm => h.unread m ?_) (fun c => ?_) h.closed
    · simp [State.pending, State.inFlight, loop, input, itemsFrom_skip skip]
    · rw [input]; exact List.mem_cons_of_mem _ hm
    · exact (itemsFrom_cons_suffix c s.offset msg rest).trans (input ▸ h.rest c)
  | @delivered msg rest c payload q cpu loop input delivery known =>
    refine h.of_pending rfl (fun d => ?_) (fun m hm => h.unread m ?_) (fun d => ?_)
      (fun v item hv hlive => ?_)
    · refine pending_of_read (q := q) loop input delivery ?_ ?_ ?_ ?_ d
      exacts [rfl, rfl, rfl, (ht.queues c q known).1]
    · rw [input]; exact List.mem_cons_of_mem _ hm
    · exact (itemsFrom_cons_suffix d s.offset msg rest).trans (input ▸ h.rest d)
    · simp only [LoopPc.putting.injEq] at hv
      obtain ⟨rfl, -⟩ := hv
      exact absurd (h.live_of_known ht known) (by simpa using hlive)
  | @created msg rest c payload cpu loop input delivery =>
    exact { h.create loop input delivery (msg.trace.getD s.ctx) with }
  | @put q item cpu loop =>
    refine h.put ht loop ?_ _
    rintro rfl
    exact (ho.loopItem q _ loop).1.ne_null rfl
  | acquired cpu =>
    exact { h.setPc (ht.cpu _ cpu) .getting rfl (by simp) (by simp) with }
  | acquireWaits cpu =>
    exact { h.setPc (ht.cpu _ cpu) .acquiring rfl (by simp) (by simp) with }
  | @exited w item rest cpu pc queue null =>
    rcases hhead queue with rfl | hobj
    · exact h.exit (ht.cpu w cpu) queue
    · exact absurd null hobj.ne_null
  | @died w item rest cpu pc queue notNull notDict =>
    rcases hhead queue with rfl | hobj
    · exact absurd rfl notNull
    · obtain ⟨payload, hp⟩ := hobj.dict
      exact absurd (hp.symm.trans notDict) (by simp)
  | @handed w item rest payload e cpu pc queue dict =>
    have hne : item ≠ .sentinel := by
      rintro rfl
      exact absurd dict (by simp [Item.sentinel, Json.dict?])
    exact { h.take hroomy (ht.cpu w cpu) queue hne (.handling item) rfl (by simp)
      (by simp [eq_comm]) with }
  | @dropped w item rest payload cpu pc queue dict =>
    have hne : item ≠ .sentinel := by
      rintro rfl
      exact absurd dict (by simp [Item.sentinel, Json.dict?])
    exact { h.take hroomy (ht.cpu w cpu) queue hne .getting rfl (by simp) (by simp) with }
  | ended cpu => exact h.setPc (ht.cpu _ cpu) .getting rfl (by simp) (by simp)
  | @chatEnded w q item cpu pc chatEnd =>
    exact h.setPc (ht.cpu w cpu) (.putting q) rfl (fun _ _ => h.ending w item pc chatEnd) (by simp)
  | @sentinelPut w q cpu pc =>
    obtain rfl := ht.workerQueue w q pc
    exact h.putSentinel pc

end RoomInv

end Consumer

end TitanChat
