import TitanChat.WorkerOrder

/-!
# The trace context of an event

The loop sets the three context variables for each record, in its own task. A worker runs in a copy
of the context of the loop, taken when its task was created, and nothing is set in it after that. So
each event that the worker handles is logged with the trace of the record at which the worker was
created: the right trace for that record, and for a later one of the conversation if it carries the
same headers.

Which record that was, and what each dispatch has seen, is kept beside the state and read by no
step.

## Main definitions

* `Traced`, `Traced.step`: the consumer with these two
* `OwnContext`: the property
* `SameTrace`: the condition on a step, that a record carries the trace of the worker's first

## Main results

* `shown_eq_dispatched`: what is kept is about each dispatch
* `ownContext_step_iff`: a step keeps the property exactly under its condition
* `ownContext_iff`: the same for whole runs
-/

namespace TitanChat

namespace Consumer

/-- What `_consume_loop` extracts from a record, by the position of the record. -/
def traceAt (records : List Record) (n : ℕ) : Option Trace := records[n]?.bind Record.trace

/-- The item that a step hands to `_dispatch`, with the context of the task. -/
def dispatchedBy (s : State) : Action → Option (Item × Trace)
  | .worker .get =>
    match s.cpu with
    | some (.worker w) =>
      match (s.workers w).pc, (s.workers w).queue with
      | .getting, item :: _ => if item.dispatches then some (item, (s.workers w).ctx) else none
      | _, _ => none
    | _ => none
  | _ => none

/-- The consumer, with the history of its contexts. -/
structure Traced where
  state : State
  /-- The position of the record at which each worker was created. -/
  creator : ℕ → ℕ
  /-- The items handed to `_dispatch`, with the context variables of the task. -/
  shown : List (Item × Trace)

namespace Traced

def start (cfg : Config) (records : List Record) : Traced :=
  ⟨.start cfg records, fun _ => 0, []⟩

/-- A step of the consumer, and what it adds to the history. -/
def step (cfg : Config) (m : Traced) (a : Action) : Option Traced :=
  (Consumer.step cfg m.state a).map fun s' =>
    { state := s'
      creator :=
        if m.state.created < s'.created then
          Function.update m.creator m.state.created m.state.offset
        else m.creator
      shown := m.shown ++ (dispatchedBy m.state a).toList }

end Traced

/-- **The property.** Each dispatch has seen the trace of its own record. -/
def OwnContext (records : List Record) (m : Traced) : Prop :=
  ∀ item ctx, (item, ctx) ∈ m.shown →
    ∃ n msg, item.offset = some n ∧ records[n]? = some msg ∧ msg.trace = some ctx

/-- **The condition.** The record of an item that is handed over has the trace of the record at
which its worker was created. -/
def SameTrace (records : List Record) (m : Traced) : Action → Prop
  | .worker .get => ∀ w item rest, m.state.cpu = some (.worker w) →
    (m.state.workers w).pc = .getting → (m.state.workers w).queue = item :: rest →
      item.dispatches = true → ∀ n, item.offset = some n →
        traceAt records n = traceAt records (m.creator w)
  | _ => True

/-! ### Where items and contexts come from -/

variable {cfg : Config} {records : List Record} {s s' : State} {m m' : Traced}

/-- The item is the payload of a record that the loop has traced. -/
def Item.Sent (records : List Record) (item : Item) : Prop :=
  ∃ n trace, item.offset = some n ∧ traceAt records n = some trace

/-- What every run keeps. -/
structure TracedInv (records : List Record) (m : Traced) : Prop where
  table : TableInv m.state
  input : m.state.input = records.drop m.state.offset
  queued : ∀ w, ∀ item ∈ (m.state.workers w).queue, item = .sentinel ∨ item.Sent records
  putting : ∀ q item, m.state.loop = .putting q item → item.Sent records
  /-- The context of a worker is that of the record at which it was created. -/
  ctx : ∀ w < m.state.created, traceAt records (m.creator w) = some (m.state.workers w).ctx

/-- A record that the loop reads is at its position. -/
theorem traceAt_of_input {msg : Record} {rest : List Record}
    (hinput : s.input = records.drop s.offset) (hread : s.input = msg :: rest) :
    traceAt records s.offset = msg.trace := by
  have hget : records[s.offset]? = some msg := by
    rw [← Nat.add_zero s.offset, ← List.getElem?_drop, ← hinput, hread, List.getElem?_cons_zero]
  rw [traceAt, hget, Option.bind_some]

/-- What is delivered has a trace. -/
theorem exists_trace_of_delivery {msg : Record} {d : String × Json}
    (h : cfg.delivery msg = some d) : ∃ trace, msg.trace = some trace := by
  obtain ⟨trace, htrace, -⟩ := Option.bind_eq_some_iff.mp h
  exact ⟨trace, htrace⟩

/-- Nothing else gets into a queue. -/
theorem mem_queue_of_step (h : TableInv s) {a : Action} (hs : step cfg s a = some s') {w : ℕ}
    {item : Item} (hitem : item ∈ (s'.workers w).queue) : item = .sentinel ∨
      item ∈ (s.workers w).queue ∨ ∃ q, s.loop = .putting q item := by
  have hkeep : (item = .sentinel ∨ item ∈ (s.workers w).queue) → item = .sentinel ∨
      item ∈ (s.workers w).queue ∨ ∃ q, s.loop = .putting q item := Or.imp_right Or.inl
  cases stepped_of_step hs with
  | resumed | skipped | delivered | awaitsRecord | putWaits | getWaits | suspended
  | sentinelWaits => exact Or.inr (Or.inl hitem)
  | created =>
    by_cases hw : w = s.created
    · subst hw
      simp only [Function.update_self] at hitem
      exact absurd hitem List.not_mem_nil
    · simp only [Function.update_of_ne hw] at hitem
      exact Or.inr (Or.inl hitem)
  | @put q x cpu loop =>
    by_cases hw : w = q
    · subst hw
      simp only [State.enqueue, State.modify_workers, if_pos, List.mem_append,
        List.mem_singleton] at hitem
      rcases hitem with hitem | rfl
      · exact Or.inr (Or.inl hitem)
      · exact Or.inr (Or.inr ⟨w, loop⟩)
    · simp only [State.enqueue, State.modify_workers, if_neg hw] at hitem
      exact Or.inr (Or.inl hitem)
  | acquired | acquireWaits | ended | chatEnded => exact hkeep (queue_setPc w item hitem)
  | @exited v x rest cpu pc queue =>
    rw [State.workers_exit] at hitem
    exact hkeep (queue_modify_tail (f := ({ · with queue := rest, pc := .exited })) queue rfl w
      item hitem)
  | @died v x rest cpu pc queue =>
    rw [State.workers_die] at hitem
    exact hkeep (queue_modify_tail (f := ({ · with queue := rest, pc := .died })) queue rfl w
      item hitem)
  | @handed v x rest payload e cpu pc queue =>
    exact hkeep (queue_modify_tail (f := ({ · with queue := rest, pc := .handling x })) queue rfl
      w item hitem)
  | @dropped v x rest payload cpu pc queue =>
    exact hkeep (queue_modify_tail (f := ({ · with queue := rest, pc := .getting })) queue rfl
      w item hitem)
  | @sentinelPut v q cpu pc =>
    obtain rfl := h.workerQueue v q pc
    rw [State.setPc_enqueue] at hitem
    refine hkeep (queue_modify (fun x hx => ?_) w item hitem)
    exact (List.mem_append.mp hx).symm.imp List.mem_singleton.mp id

theorem ctx_modify (s : State) (v : ℕ) (f : Worker → Worker)
    (hf : (f (s.workers v)).ctx = (s.workers v).ctx) (w : ℕ) :
    ((s.modify v f).workers w).ctx = (s.workers w).ctx := by
  rw [State.modify_workers]
  split
  · next hv => rw [hf, hv]
  · rfl

theorem ctx_setPc (s : State) (v : ℕ) (pc : WorkerPc) (w : ℕ) :
    ((s.setPc v pc).workers w).ctx = (s.workers w).ctx :=
  ctx_modify s v _ rfl w

theorem ctx_enqueue (s : State) (q : ℕ) (item : Item) (w : ℕ) :
    ((s.enqueue q item).workers w).ctx = (s.workers w).ctx :=
  ctx_modify s q _ rfl w

/-- A worker keeps its context. -/
theorem ctx_of_step {a : Action} (hs : step cfg s a = some s') {w : ℕ} (hw : w < s.created) :
    (s'.workers w).ctx = (s.workers w).ctx := by
  cases stepped_of_step hs with
  | resumed | skipped | delivered | awaitsRecord | putWaits | getWaits | suspended
  | sentinelWaits => rfl
  | created => simp only [Function.update_of_ne (Nat.ne_of_lt hw)]
  | put => exact ctx_enqueue s _ _ w
  | acquired | acquireWaits | ended | chatEnded => exact ctx_setPc s _ _ w
  | @handed v item rest =>
    exact ctx_modify s v ({ · with queue := rest, pc := .handling item }) rfl w
  | @dropped v item rest =>
    exact ctx_modify s v ({ · with queue := rest, pc := .getting }) rfl w
  | exited =>
    rw [State.workers_exit]
    exact ctx_modify s _ _ rfl w
  | died =>
    rw [State.workers_die]
    exact ctx_modify s _ _ rfl w
  | sentinelPut => exact (ctx_setPc _ _ _ w).trans (ctx_enqueue s _ _ w)

/-- A worker is created in the context of its record. -/
theorem ctx_of_created {a : Action} (hs : step cfg s a = some s')
    (hinput : s.input = records.drop s.offset) (hnew : s.created < s'.created) :
    s'.created = s.created + 1 ∧
      traceAt records s.offset = some (s'.workers s.created).ctx := by
  cases stepped_of_step hs with
  | created cpu loop input delivery =>
    obtain ⟨trace, htrace⟩ := exists_trace_of_delivery delivery
    refine ⟨rfl, ?_⟩
    simp only [Function.update_self]
    rw [traceAt_of_input hinput input, htrace, Option.getD_some]
  | resumed | skipped | delivered | awaitsRecord | putWaits | put | acquired | acquireWaits
  | getWaits | exited | died | handed | dropped | suspended | ended | chatEnded | sentinelWaits
  | sentinelPut => exact absurd hnew (lt_irrefl _)

/-- The loop puts the payload of the record that it has read. -/
theorem putting_of_step {a : Action} (hs : step cfg s a = some s')
    (hinput : s.input = records.drop s.offset) {q : ℕ} {item : Item}
    (hloop : s'.loop = .putting q item) : s.loop = .putting q item ∨ item.Sent records := by
  have hread {msg : Record} {rest : List Record} {d : String × Json} {v : ℕ} {payload : Json}
      (hin : s.input = msg :: rest) (hd : cfg.delivery msg = some d)
      (hput : LoopPc.putting v { offset := some s.offset, value := payload } = .putting q item) :
      item.Sent records := by
    obtain ⟨trace, htrace⟩ := exists_trace_of_delivery hd
    obtain ⟨-, rfl⟩ := LoopPc.putting.inj hput
    exact ⟨s.offset, trace, rfl, (traceAt_of_input hinput hin).trans htrace⟩
  cases stepped_of_step hs with
  | delivered cpu loop input delivery => exact Or.inr (hread input delivery hloop)
  | created cpu loop input delivery => exact Or.inr (hread input delivery hloop)
  | put => exact absurd hloop (by simp)
  | resumed | skipped | awaitsRecord | putWaits | acquired | acquireWaits | getWaits | exited
  | died | handed | dropped | suspended | ended | chatEnded | sentinelWaits
  | sentinelPut => exact Or.inl hloop

/-! ### One step -/

theorem step_of_traced {a : Action} (hs : m.step cfg a = some m') :
    step cfg m.state a = some m'.state ∧
      m'.shown = m.shown ++ (dispatchedBy m.state a).toList ∧
      m'.creator = if m.state.created < m'.state.created then
        Function.update m.creator m.state.created m.state.offset else m.creator := by
  obtain ⟨s', hs', rfl⟩ := Option.map_eq_some_iff.mp hs
  exact ⟨hs', rfl, rfl⟩

theorem TracedInv.step (h : TracedInv records m) {a : Action} (hs : m.step cfg a = some m') :
    TracedInv records m' := by
  obtain ⟨hstep, -, hcreator⟩ := step_of_traced hs
  refine ⟨h.table.step hstep, input_step h.input hstep, fun w item hitem => ?_,
    fun q item hloop => ?_, fun w hw => ?_⟩
  · rcases mem_queue_of_step h.table hstep hitem with hsentinel | hitem | ⟨q, hloop⟩
    · exact Or.inl hsentinel
    · exact h.queued w item hitem
    · exact Or.inr (h.putting q item hloop)
  · exact (putting_of_step hstep h.input hloop).elim (h.putting q item) id
  · by_cases hold : w < m.state.created
    · have hne : w ≠ m.state.created := Nat.ne_of_lt hold
      have hsame : m'.creator w = m.creator w := by
        rw [hcreator]
        split
        · exact Function.update_of_ne hne _ _
        · rfl
      rw [hsame, ctx_of_step hstep hold]
      exact h.ctx w hold
    · have hnew : m.state.created < m'.state.created := by omega
      obtain ⟨hcount, htrace⟩ := ctx_of_created hstep h.input hnew
      obtain rfl : w = m.state.created := by omega
      rw [hcreator, if_pos hnew, Function.update_self]
      exact htrace

/-- What a step hands to `_dispatch`. -/
theorem dispatchedBy_eq_some_iff {a : Action} {item : Item} {ctx : Trace} :
    dispatchedBy s a = some (item, ctx) ↔ a = .worker .get ∧ ∃ w rest,
      s.cpu = some (.worker w) ∧ (s.workers w).pc = .getting ∧
        (s.workers w).queue = item :: rest ∧ item.dispatches = true ∧ (s.workers w).ctx = ctx := by
  constructor
  · intro h
    unfold dispatchedBy at h
    split at h
    · split at h
      · next w hcpu =>
        split at h
        · next item' rest hpc hqueue =>
          obtain ⟨hdispatches, h⟩ := Option.ite_none_right_eq_some.mp h
          obtain ⟨rfl, rfl⟩ := Prod.mk.inj (Option.some.inj h)
          exact ⟨rfl, w, rest, hcpu, hpc, hqueue, hdispatches, rfl⟩
        · exact absurd h (by simp)
      · exact absurd h (by simp)
    · exact absurd h (by simp)
  · rintro ⟨rfl, w, rest, hcpu, hpc, hqueue, hdispatches, rfl⟩
    simp [dispatchedBy, hcpu, hpc, hqueue, hdispatches]

/-- It is what the state keeps of it. -/
theorem dispatched_of_step {a : Action} (hs : Consumer.step cfg s a = some s') :
    s'.dispatched.map Prod.snd =
      s.dispatched.map Prod.snd ++ (dispatchedBy s a).toList.map Prod.fst := by
  have hquiet (h : dispatchedBy s a = none) (hsame : s'.dispatched = s.dispatched) :
      s'.dispatched.map Prod.snd =
        s.dispatched.map Prod.snd ++ (dispatchedBy s a).toList.map Prod.fst := by
    rw [h, hsame, Option.toList_none, List.map_nil, List.append_nil]
  have hloud {w : ℕ} {item : Item} (h : dispatchedBy s a = some (item, (s.workers w).ctx))
      (happend : s'.dispatched = s.dispatched ++ [((s.workers w).conversation_id, item)]) :
      s'.dispatched.map Prod.snd =
        s.dispatched.map Prod.snd ++ (dispatchedBy s a).toList.map Prod.fst := by
    rw [h, happend, List.map_append]
    rfl
  cases stepped_of_step hs with
  | resumed | skipped | delivered | created | awaitsRecord | putWaits | put | acquired
  | acquireWaits | suspended | chatEnded | sentinelWaits | sentinelPut => exact hquiet rfl rfl
  | getWaits cpu pc empty => exact hquiet (by simp [dispatchedBy, cpu, pc, empty]) rfl
  | ended cpu pc how => exact hquiet (by rcases how with rfl | ⟨rfl, -⟩ <;> rfl) rfl
  | exited cpu pc queue null =>
    exact hquiet (by simp [dispatchedBy, cpu, pc, queue, Item.dispatches, null, Json.dict?]) rfl
  | died cpu pc queue notNull notDict =>
    exact hquiet (by simp [dispatchedBy, cpu, pc, queue, Item.dispatches, notDict]) rfl
  | handed cpu pc queue dict | dropped cpu pc queue dict =>
    exact hloud (by simp [dispatchedBy, cpu, pc, queue, Item.dispatches, dict]) rfl

/-- An item that is handed over is the payload of a record. -/
theorem TracedInv.sent (h : TracedInv records m) {w : ℕ} {item : Item} {rest : List Item}
    (hqueue : (m.state.workers w).queue = item :: rest) (hdispatches : item.dispatches = true) :
    item.Sent records := by
  refine (h.queued w item (hqueue ▸ List.mem_cons_self)).resolve_left ?_
  rintro rfl
  exact Bool.false_ne_true hdispatches

/-- **A step keeps the property exactly under its condition.** -/
theorem ownContext_step_iff (h : TracedInv records m) (hown : OwnContext records m) {a : Action}
    (hs : m.step cfg a = some m') : OwnContext records m' ↔ SameTrace records m a := by
  obtain ⟨-, hshown, -⟩ := step_of_traced hs
  -- whether the new entry shows the trace of its own record
  have hentry {w n : ℕ} (hw : w < m.state.created) :
      (∃ msg, records[n]? = some msg ∧ msg.trace = some (m.state.workers w).ctx) ↔
        traceAt records n = traceAt records (m.creator w) := by
    rw [h.ctx w hw, traceAt, Option.bind_eq_some_iff]
  constructor
  · intro hown'
    rw [SameTrace.eq_def]
    split
    · intro w item rest hcpu hpc hqueue hdispatches n hn
      have hlive := h.table.lt_created (h.table.cpu w hcpu)
      have hby : dispatchedBy m.state (.worker .get) = some (item, (m.state.workers w).ctx) :=
        dispatchedBy_eq_some_iff.mpr ⟨rfl, w, rest, hcpu, hpc, hqueue, hdispatches, rfl⟩
      have hmem : (item, (m.state.workers w).ctx) ∈ m'.shown := by
        rw [hshown, hby]
        exact List.mem_append_right _ (List.mem_singleton_self _)
      obtain ⟨k, msg, hk, hmsg, htrace⟩ := hown' _ _ hmem
      obtain rfl := Option.some.inj (hn.symm.trans hk)
      exact (hentry hlive).mp ⟨msg, hmsg, htrace⟩
    · trivial
  · intro hsame item ctx hmem
    rw [hshown, List.mem_append, Option.mem_toList] at hmem
    rcases hmem with hmem | hby
    · exact hown item ctx hmem
    · obtain ⟨rfl, w, rest, hcpu, hpc, hqueue, hdispatches, rfl⟩ :=
        dispatchedBy_eq_some_iff.mp hby
      have hlive := h.table.lt_created (h.table.cpu w hcpu)
      obtain ⟨n, trace, hn, -⟩ := h.sent hqueue hdispatches
      obtain ⟨msg, hmsg, htrace⟩ :=
        (hentry hlive).mpr (hsame w item rest hcpu hpc hqueue hdispatches n hn)
      exact ⟨n, msg, hn, hmsg, htrace⟩

/-! ### Whole runs -/

theorem TracedInv.start (cfg : Config) (records : List Record) :
    TracedInv records (.start cfg records) where
  table := .start cfg records
  input := rfl
  queued w item hitem := absurd hitem List.not_mem_nil
  putting q item hloop := by simp [Traced.start, State.start] at hloop
  ctx w hw := absurd hw (Nat.not_lt_zero w)

/-- **Every dispatch runs in the context of its record throughout a run** if and only if each record
that is handled carries the trace of the record at which its worker was created. -/
theorem ownContext_iff (cfg : Config) (records : List Record) (schedule : List Action) :
    Transition.Always (Traced.step cfg) (OwnContext records) (.start cfg records) schedule ↔
      Transition.Guarded (Traced.step cfg) (SameTrace records) (.start cfg records) schedule :=
  Transition.always_iff_guarded (fun _ _ _ h hs => h.step hs)
    (fun _ _ _ h hi hs => ownContext_step_iff h hi hs) (.start cfg records)
    fun _ _ hmem => absurd hmem List.not_mem_nil

/-- The history is about what is handed to `_dispatch`. -/
theorem shown_eq_dispatched (cfg : Config) (records : List Record) (schedule : List Action) :
    Transition.Always (Traced.step cfg)
      (fun m => m.shown.map Prod.fst = m.state.dispatched.map Prod.snd)
      (.start cfg records) schedule := by
  refine Transition.always_of_invariant
    (I := fun m : Traced => m.shown.map Prod.fst = m.state.dispatched.map Prod.snd)
    (fun m a m' h hs => ?_) rfl schedule
  obtain ⟨hstep, hshown, -⟩ := step_of_traced hs
  rw [hshown, List.map_append, h, dispatched_of_step hstep]

/-- An ack of `conv-1` with a trace. -/
def tracedAck (trace_id message_id : String) : Record :=
  { sampleRecord (ackText message_id) with
    headers := [("trace_id", some trace_id.toUTF8), ("event_type", some "ack".toUTF8)] }

/-- Two acks, handled one after the other. -/
def twoAcksRun : List Action :=
  [.resume .loop, .loop .read, .loop .put, .loop .read, .loop .put, .loop .awaitRecord,
    .resume (.worker 0), .worker .acquire, .worker .get, .worker .handlerReturns, .worker .get]

/-- **The second event of a conversation.** It is handled in the trace of the first. -/
theorem not_ownContext : ¬ ∀ (cfg : Config) (records : List Record) (schedule : List Action),
    Transition.Always (Traced.step cfg) (OwnContext records) (.start cfg records) schedule := by
  intro h
  let records := [tracedAck "trace-1" "m1", tracedAck "trace-2" "m2"]
  have hrun : (Transition.run (Traced.step sampleConfig) (.start sampleConfig records)
      twoAcksRun).map (fun m => m.shown.map fun e => (e.1.offset, e.2)) =
        some [(some 0, ⟨"trace-1", "conv-1", "ack"⟩), (some 1, ⟨"trace-1", "conv-1", "ack"⟩)] := by
    decide +kernel
  obtain ⟨m, hm, hshown⟩ := Option.map_eq_some_iff.mp hrun
  have hmem : (some 1, (⟨"trace-1", "conv-1", "ack"⟩ : Trace)) ∈
      m.shown.map fun e => (e.1.offset, e.2) := by
    rw [hshown]
    exact List.mem_cons_of_mem _ List.mem_cons_self
  obtain ⟨⟨item, ctx⟩, hentry, heq⟩ := List.mem_map.mp hmem
  obtain ⟨hoffset, rfl⟩ := Prod.mk.inj heq
  obtain ⟨n, msg, hn, hmsg, htrace⟩ := (h sampleConfig records twoAcksRun).run hm _ _ hentry
  obtain rfl : n = 1 := Option.some.inj (hn.symm.trans hoffset)
  obtain rfl := Option.some.inj hmsg
  exact absurd htrace (by decide +kernel)

end Consumer

end TitanChat
