import TitanChat.QueueRoom

/-!
# Malformed records

The loop guards against a record that it cannot decode: the error is logged and the record is
skipped. What it decodes it puts on a queue, whatever it is. The worker of the conversation calls
`payload.get` on it outside of its `try`, so a list, a number or a string ends the worker for good,
and leaves its entry in `_conv_queues`; and `null` is the sentinel.

The sentinels come from `_dispatch`, after a `chat_end`, and from `stop_consumer`, which is part of
the process here: it cancels the loop and then puts a sentinel on every queue in turn.

## Main definitions

* `Process`, `Process.step`: the consumer with `stop_consumer`
* `Process.Alive`: every conversation in `_conv_queues` has a worker that has not terminated
* `Unharmed`: what a step may not do to the records that are still to come
* `TakesWell`: the worker takes an object or the sentinel

## Main results

* `unharmed_iff`: a step does no harm exactly if it takes no malformed record
* `alive_unharmed_iff`: the same for whole runs
* `takesWell_of_objects`: records that are objects meet the condition
-/

namespace TitanChat

namespace Consumer

/-! ### The process -/

/-- Where `stop_consumer` is. -/
inductive StopPc where
  /-- Not called. -/
  | running
  /-- At `await _consumer_task`, which has been cancelled. -/
  | cancelling
  /-- At `await q.put(None)`, for each of these queues in turn. -/
  | putting (qs : List ℕ)

structure Process where
  consumer : State
  stop : StopPc

inductive Signal where
  | run (a : Action)
  /-- `stop_consumer` is called and cancels the loop. -/
  | cancel
  /-- The loop has ended; `stop_consumer` makes the list of queues. -/
  | collect
  | putSentinel

/-- The queues in `_conv_queues`, in order. -/
def State.activeQueues (s : State) : List ℕ :=
  (List.range s.created).filter fun q => s.convQueues (s.workers q).conversation_id = some q

namespace Process

def start (cfg : Config) (records : List Record) : Process :=
  { consumer := .start cfg records, stop := .running }

/-- One step of the process. A loop that has been cancelled takes no more steps. -/
def step (cfg : Config) (p : Process) : Signal → Option Process
  | .run a =>
    match p.stop with
    | .running => (Consumer.step cfg p.consumer a).map ({ p with consumer := · })
    | _ =>
      if a.movesLoop then none
      else (Consumer.step cfg p.consumer a).map ({ p with consumer := · })
  | .cancel =>
    match p.stop with
    | .running => if p.consumer.cpu = none then some { p with stop := .cancelling } else none
    | _ => none
  | .collect =>
    match p.stop with
    | .cancelling =>
      if p.consumer.cpu = none then some { p with stop := .putting p.consumer.activeQueues }
      else none
    | _ => none
  | .putSentinel =>
    match p.stop with
    | .putting (q :: qs) =>
      if p.consumer.cpu = none ∧ ¬cfg.full (p.consumer.workers q).queue then
        some { consumer := p.consumer.enqueue q .sentinel, stop := .putting qs }
      else none
    | _ => none

/-- Everything a step can do. -/
inductive Stepped (cfg : Config) (p : Process) : Signal → Process → Prop
  | ran {a : Action} {s : State} (step : Consumer.step cfg p.consumer a = some s) :
      Stepped cfg p (.run a) { p with consumer := s }
  | cancelled : Stepped cfg p .cancel { p with stop := .cancelling }
  | collected : Stepped cfg p .collect { p with stop := .putting p.consumer.activeQueues }
  | put {q : ℕ} {qs : List ℕ} (stop : p.stop = .putting (q :: qs)) :
      Stepped cfg p .putSentinel
        { consumer := p.consumer.enqueue q .sentinel, stop := .putting qs }

variable {cfg : Config} {p p' : Process}

theorem of_cancel (h : step cfg p .cancel = some p') :
    p.stop = .running ∧ p.consumer.cpu = none ∧ p' = { p with stop := .cancelling } := by
  rw [step] at h
  split at h
  · next hstop =>
    obtain ⟨hcpu, h⟩ := Option.ite_none_right_eq_some.mp h
    exact ⟨hstop, hcpu, (Option.some.inj h).symm⟩
  · exact absurd h (by simp)

theorem of_collect (h : step cfg p .collect = some p') :
    p.stop = .cancelling ∧ p.consumer.cpu = none ∧
      p' = { p with stop := .putting p.consumer.activeQueues } := by
  rw [step] at h
  split at h
  · next hstop =>
    obtain ⟨hcpu, h⟩ := Option.ite_none_right_eq_some.mp h
    exact ⟨hstop, hcpu, (Option.some.inj h).symm⟩
  · exact absurd h (by simp)

theorem of_putSentinel (h : step cfg p .putSentinel = some p') :
    ∃ q qs, p.stop = .putting (q :: qs) ∧ p.consumer.cpu = none ∧
      ¬cfg.full (p.consumer.workers q).queue ∧
      p' = { consumer := p.consumer.enqueue q .sentinel, stop := .putting qs } := by
  rw [step] at h
  split at h
  · next q qs hstop =>
    obtain ⟨⟨hcpu, hroom⟩, h⟩ := Option.ite_none_right_eq_some.mp h
    exact ⟨q, qs, hstop, hcpu, hroom, (Option.some.inj h).symm⟩
  · exact absurd h (by simp)

theorem stepped_of_step {a : Signal} (h : step cfg p a = some p') : Stepped cfg p a p' := by
  cases a with
  | run a =>
    have hstep : (Consumer.step cfg p.consumer a).map ({ p with consumer := · }) = some p' := by
      rw [step] at h
      split at h
      · exact h
      · exact (Option.ite_none_left_eq_some.mp h).2
    obtain ⟨s, hs, rfl⟩ := Option.map_eq_some_iff.mp hstep
    exact .ran hs
  | cancel =>
    obtain ⟨-, -, rfl⟩ := of_cancel h
    exact .cancelled
  | collect =>
    obtain ⟨-, -, rfl⟩ := of_collect h
    exact .collected
  | putSentinel =>
    obtain ⟨q, qs, hstop, -, -, rfl⟩ := of_putSentinel h
    exact .put hstop

/-- Every conversation in `_conv_queues` has a worker that has not terminated. -/
def Alive (p : Process) : Prop :=
  ∀ c q, p.consumer.convQueues c = some q → (p.consumer.workers q).pc.live

end Process

/-! ### The property and the condition -/

/-- What a step must not do to the records that are still to come. -/
structure Unharmed (cfg : Config) (p : Process) (a : Signal) : Prop where
  /-- A worker leaves its loop only on a sentinel. -/
  leaves : ∀ p', p.step cfg a = some p' → ∀ w, (p.consumer.workers w).pc.live →
    (p'.consumer.workers w).pc.live = false →
      (p.consumer.workers w).queue.head? = some .sentinel
  /-- After any other item the worker goes on with the next one, and nothing else changes. -/
  taken : ∀ p', p.step cfg a = some p' → ∀ w item rest, a = .run (.worker .get) →
    p.consumer.cpu = some (.worker w) → (p.consumer.workers w).queue = item :: rest →
      item ≠ .sentinel → (p'.consumer.workers w).pc.live ∧
        (p'.consumer.workers w).queue = rest ∧
        (∀ v, v ≠ w → p'.consumer.workers v = p.consumer.workers v) ∧
        p'.consumer.convQueues = p.consumer.convQueues ∧
        p'.consumer.permits = p.consumer.permits
  /-- A record that cannot be delivered is skipped. -/
  skipped : ∀ p', p.step cfg a = some p' → ∀ msg rest, a = .run (.loop .read) →
    p.consumer.input = msg :: rest → cfg.delivery msg = none →
      p'.consumer.input = rest ∧ p'.consumer.loop = .fetching ∧
        p'.consumer.workers = p.consumer.workers ∧
        p'.consumer.convQueues = p.consumer.convQueues ∧
        p'.consumer.permits = p.consumer.permits

/-- **The condition.** The item that a worker takes is an object or the sentinel. -/
def TakesWell (p : Process) (a : Signal) : Prop :=
  a = .run (.worker .get) → ∀ w item rest, p.consumer.cpu = some (.worker w) →
    (p.consumer.workers w).pc = .getting → (p.consumer.workers w).queue = item :: rest →
      item = .sentinel ∨ item.value.dict?.isSome

/-- The queues that `stop_consumer` works on exist. -/
structure ProcessInv (p : Process) : Prop where
  table : TableInv p.consumer
  stop : ∀ qs, p.stop = .putting qs → ∀ q ∈ qs, q < p.consumer.created

variable {cfg : Config} {records : List Record} {p p' : Process} {s s' : State}

theorem ProcessInv.start (cfg : Config) (records : List Record) :
    ProcessInv (.start cfg records) where
  table := .start cfg records
  stop qs hqs := by simp [Process.start] at hqs

theorem ProcessInv.step (h : ProcessInv p) {a : Signal} (hs : p.step cfg a = some p') :
    ProcessInv p' := by
  cases Process.stepped_of_step hs with
  | ran hstep =>
    exact ⟨h.table.step hstep, fun qs hqs q hq =>
      (h.stop qs hqs q hq).trans_le (created_le_of_step hstep)⟩
  | cancelled => exact ⟨h.table, by simp⟩
  | collected =>
    refine ⟨h.table, fun qs hqs q hq => ?_⟩
    obtain rfl := StopPc.putting.inj hqs
    exact List.mem_range.mp (List.mem_filter.mp hq).1
  | @put q qs hstop =>
    have hqs := h.stop _ hstop
    refine ⟨h.table.enqueue (hqs q (List.mem_cons_self ..)) _, fun rs hrs r hr => ?_⟩
    obtain rfl := StopPc.putting.inj hrs
    exact hqs r (List.mem_cons_of_mem _ hr)

/-! ### One step -/

/-- A worker that has an item takes it. -/
theorem step_get {w : ℕ} {item : Item} {rest : List Item}
    (hcpu : p.consumer.cpu = some (.worker w)) (hpc : (p.consumer.workers w).pc = .getting)
    (hqueue : (p.consumer.workers w).queue = item :: rest) :
    p.step cfg (.run (.worker .get)) =
      some { p with consumer := p.consumer.take w item rest } := by
  have hstep : Consumer.step cfg p.consumer (.worker .get) =
      some (p.consumer.take w item rest) := by
    simp only [step, hcpu, workerStep, hpc, hqueue]
  rw [Process.step, hstep]
  cases p.stop with
  | running | cancelling | putting qs => rfl

theorem pc_enqueue (q : ℕ) (item : Item) (w : ℕ) :
    ((s.enqueue q item).workers w).pc = (s.workers w).pc := by
  rw [State.enqueue, State.modify_workers]
  split
  · next hwq => rw [hwq]
  · rfl

/-- What keeps a worker live cannot have ended another. -/
theorem pc_modify_of_live {v w : ℕ} (f : Worker → Worker) (hf : (f (s.workers v)).pc.live)
    (hdead : ((s.modify v f).workers w).pc.live = false) :
    ((s.modify v f).workers w).pc = (s.workers w).pc := by
  rw [State.modify_workers] at hdead ⊢
  split at hdead
  · rw [hf] at hdead
    exact absurd hdead (by simp)
  · next hwv => rw [if_neg hwv]

/-- A worker that is not live has not moved, or it has taken `null` or something that is no
object. -/
theorem took_of_not_live {a : Action} (h : Consumer.step cfg s a = some s') {w : ℕ}
    (hdead : (s'.workers w).pc.live = false) :
    (s'.workers w).pc = (s.workers w).pc ∨
      (a = .worker .get ∧ s.cpu = some (.worker w) ∧ (s.workers w).pc = .getting ∧
        ∃ item rest, (s.workers w).queue = item :: rest ∧ item.value.dict? = none ∧
          (item.value = .null → (s'.workers w).pc = .exited)) := by
  cases stepped_of_step h with
  | resumed | skipped | delivered | awaitsRecord | putWaits | getWaits | suspended
  | sentinelWaits => exact Or.inl rfl
  | created =>
    by_cases hw : w = s.created
    · subst hw
      exact absurd hdead (by simp [WorkerPc.live])
    · exact Or.inl (by simp [hw])
  | @put q item => exact Or.inl (pc_enqueue q item w)
  | @acquired v => exact Or.inl (pc_modify_of_live ({ · with pc := .getting }) rfl hdead)
  | @acquireWaits v => exact Or.inl (pc_modify_of_live ({ · with pc := .acquiring }) rfl hdead)
  | @handed v item rest =>
    exact Or.inl (pc_modify_of_live ({ · with queue := rest, pc := .handling item }) rfl hdead)
  | @dropped v item rest =>
    exact Or.inl (pc_modify_of_live ({ · with queue := rest, pc := .getting }) rfl hdead)
  | @ended v => exact Or.inl (pc_modify_of_live ({ · with pc := .getting }) rfl hdead)
  | @chatEnded v q => exact Or.inl (pc_modify_of_live ({ · with pc := .putting q }) rfl hdead)
  | @exited v item rest cpu pc queue null =>
    by_cases hwv : w = v
    · subst hwv
      refine Or.inr ⟨rfl, cpu, pc, item, rest, queue, by rw [null]; rfl, fun _ => ?_⟩
      simp [State.exit, State.setPc]
    · exact Or.inl (by simp [State.exit, State.setPc, hwv])
  | @died v item rest cpu pc queue notNull notDict =>
    by_cases hwv : w = v
    · subst hwv
      exact Or.inr ⟨rfl, cpu, pc, item, rest, queue, notDict, fun hnull => absurd hnull notNull⟩
    · exact Or.inl (by simp [State.die, State.setPc, hwv])
  | @sentinelPut v q cpu pc room =>
    by_cases hwv : w = v
    · subst hwv
      exact absurd hdead (by simp [State.setPc, WorkerPc.live])
    · refine Or.inl ?_
      rw [State.setPc, State.modify_workers, if_neg hwv, pc_enqueue]

/-- Under the condition no worker dies. -/
theorem undead_step {a : Signal} (hs : p.step cfg a = some p') (hwell : TakesWell p a)
    (h : ∀ w, (p.consumer.workers w).pc ≠ .died) (w : ℕ) : (p'.consumer.workers w).pc ≠ .died := by
  intro hdied
  cases Process.stepped_of_step hs with
  | @ran a s hstep =>
    obtain hsame | ⟨rfl, hcpu, hpc, item, rest, hqueue, hdict, hexit⟩ :=
      took_of_not_live hstep (w := w) (by rw [hdied]; rfl)
    · exact h w (hsame.symm.trans hdied)
    · obtain rfl | hsome := hwell rfl w item rest hcpu hpc hqueue
      · rw [hexit rfl] at hdied
        exact absurd hdied (by simp)
      · rw [hdict] at hsome
        exact absurd hsome (by simp)
  | cancelled | collected => exact h w hdied
  | @put q qs hstop =>
    rw [pc_enqueue] at hdied
    exact h w hdied

/-- A worker that takes an object goes on. -/
theorem take_of_object {w : ℕ} {item : Item} (rest : List Item) (h : item.value.dict?.isSome) :
    ∃ pc : WorkerPc, pc.live ∧ s.take w item rest =
      { s.modify w ({ · with queue := rest, pc := pc }) with
        dispatched := s.dispatched ++ [((s.workers w).conversation_id, item)] } := by
  obtain ⟨payload, hpayload⟩ := Option.isSome_iff_exists.mp h
  rw [State.take]
  split
  · next hnull =>
    rw [hnull] at hpayload
    exact absurd hpayload (by simp [Json.dict?])
  · rw [hpayload]
    cases hselect : select payload with
    | handler e =>
      refine ⟨.handling item, rfl, ?_⟩
      simp [State.dispatch, hselect, State.setPc, State.modify]
    | unknown | unhashable =>
      refine ⟨.getting, rfl, ?_⟩
      simp [State.dispatch, hselect, State.setPc, State.modify]

/-- A worker that takes something malformed leaves its loop. -/
theorem not_live_take {w : ℕ} {item : Item} {rest : List Item} (h : item.value.dict? = none) :
    ((s.take w item rest).workers w).pc.live = false := by
  rw [State.take]
  split
  · simp [State.exit, State.setPc, WorkerPc.live]
  · rw [h]
    simp [State.die, State.setPc, WorkerPc.live]

theorem leaves_of_takesWell {a : Signal} (hwell : TakesWell p a) (hs : p.step cfg a = some p')
    {w : ℕ} (hlive : (p.consumer.workers w).pc.live)
    (hdead : (p'.consumer.workers w).pc.live = false) :
    (p.consumer.workers w).queue.head? = some .sentinel := by
  cases Process.stepped_of_step hs with
  | @ran a s hstep =>
    obtain hsame | ⟨rfl, hcpu, hpc, item, rest, hqueue, hdict, -⟩ := took_of_not_live hstep hdead
    · rw [hsame, hlive] at hdead
      exact absurd hdead (by simp)
    · obtain rfl | hsome := hwell rfl w item rest hcpu hpc hqueue
      · rw [hqueue, List.head?_cons]
      · rw [hdict] at hsome
        exact absurd hsome (by simp)
  | cancelled | collected =>
    rw [hlive] at hdead
    exact absurd hdead (by simp)
  | @put q qs hstop =>
    rw [pc_enqueue, hlive] at hdead
    exact absurd hdead (by simp)

theorem taken_of_takesWell (hwell : TakesWell p (.run (.worker .get)))
    (hs : p.step cfg (.run (.worker .get)) = some p') {w : ℕ} {item : Item} {rest : List Item}
    (hcpu : p.consumer.cpu = some (.worker w))
    (hqueue : (p.consumer.workers w).queue = item :: rest) (hne : item ≠ .sentinel) :
    (p'.consumer.workers w).pc.live ∧ (p'.consumer.workers w).queue = rest ∧
      (∀ v, v ≠ w → p'.consumer.workers v = p.consumer.workers v) ∧
      p'.consumer.convQueues = p.consumer.convQueues ∧
      p'.consumer.permits = p.consumer.permits := by
  have hpc : (p.consumer.workers w).pc = .getting := by
    cases Process.stepped_of_step hs with
    | @ran a s hstep =>
      simp only [Consumer.step, hcpu, workerStep] at hstep
      cases hpc : (p.consumer.workers w).pc <;> simp [hpc] at hstep ⊢
  have hdict : item.value.dict?.isSome := (hwell rfl w item rest hcpu hpc hqueue).resolve_left hne
  obtain ⟨pc, hlive, htake⟩ := take_of_object (s := p.consumer) (w := w) rest hdict
  obtain rfl := Option.some.inj ((step_get hcpu hpc hqueue).symm.trans hs)
  refine ⟨by simpa [htake] using hlive, by simp [htake], fun v hv => by simp [htake, hv],
    by simp [htake], ?_⟩
  simp [htake, State.modify]

theorem skipped_of_step (hs : p.step cfg (.run (.loop .read)) = some p') {msg : Record}
    {rest : List Record} (hinput : p.consumer.input = msg :: rest)
    (hskip : cfg.delivery msg = none) :
    p'.consumer.input = rest ∧ p'.consumer.loop = .fetching ∧
      p'.consumer.workers = p.consumer.workers ∧ p'.consumer.convQueues = p.consumer.convQueues ∧
      p'.consumer.permits = p.consumer.permits := by
  cases Process.stepped_of_step hs with
  | @ran a s hstep =>
    cases Consumer.stepped_of_step hstep with
    | skipped cpu loop input =>
      obtain ⟨-, rfl⟩ := List.cons.inj (input.symm.trans hinput)
      exact ⟨rfl, loop, rfl, rfl, rfl⟩
    | delivered cpu loop input delivery | created cpu loop input delivery =>
      obtain ⟨rfl, -⟩ := List.cons.inj (input.symm.trans hinput)
      rw [hskip] at delivery
      exact absurd delivery (by simp)

/-- **A step does no harm exactly if it takes no malformed record.** -/
theorem unharmed_iff {a : Signal} : Unharmed cfg p a ↔ TakesWell p a := by
  constructor
  · rintro h rfl w item rest hcpu hpc hqueue
    by_contra hbad
    obtain ⟨hne, hnone⟩ := not_or.mp hbad
    have hdict : item.value.dict? = none := Option.not_isSome_iff_eq_none.mp hnone
    have hhead := h.leaves _ (step_get hcpu hpc hqueue) w (by rw [hpc]; rfl) (not_live_take hdict)
    rw [hqueue] at hhead
    exact hne (Option.some.inj hhead)
  · intro hwell
    refine ⟨fun p' hs w hlive hdead => leaves_of_takesWell hwell hs hlive hdead, ?_, ?_⟩
    · rintro p' hs w item rest rfl hcpu hqueue hne
      exact taken_of_takesWell hwell hs hcpu hqueue hne
    · rintro p' hs msg rest rfl hinput hskip
      exact skipped_of_step hs hinput hskip

/-! ### Whole runs -/

theorem ProcessInv.alive (h : ProcessInv p) (hundead : ∀ w, (p.consumer.workers w).pc ≠ .died) :
    p.Alive := by
  intro c q hq
  have hexited := (h.table.queues c q hq).2
  have hdied := hundead q
  cases hpc : (p.consumer.workers q).pc with
  | exited => exact absurd hpc hexited
  | died => exact absurd hpc hdied
  | created | acquiring | getting | handling item | putting v => rfl

/-- **A malformed record kills or mutes a conversation**, and nothing else does. -/
theorem alive_unharmed_iff (cfg : Config) (records : List Record) (schedule : List Signal) :
    (Transition.Always (Process.step cfg) Process.Alive (.start cfg records) schedule ∧
      Transition.Guarded (Process.step cfg) (Unharmed cfg) (.start cfg records) schedule) ↔
      Transition.Guarded (Process.step cfg) TakesWell (.start cfg records) schedule := by
  have hsame : Unharmed cfg = TakesWell := by
    funext p a
    exact propext unharmed_iff
  rw [hsame, and_iff_right_iff_imp]
  intro hguarded
  refine (Transition.always_of_guarded (I := fun p => ProcessInv p ∧
    ∀ w, (p.consumer.workers w).pc ≠ .died) (fun p a p' h hwell hs => ?_) ?_ hguarded).imp
      fun p h => h.1.alive h.2
  · exact ⟨h.1.step hs, undead_step hs hwell h.2⟩
  · exact ⟨ProcessInv.start cfg records, fun w => by simp [Process.start, State.start]⟩

/-- Sentinels on queues that exist. -/
theorem OffsetInv.enqueue_sentinel (h : OffsetInv cfg s) (q : ℕ) :
    OffsetInv cfg (s.enqueue q .sentinel) := by
  refine h.of_le rfl rfl rfl (fun v x hx => ?_) rfl fun n hn => Or.inr (Or.inl hn)
  refine queue_modify (fun y hy => ?_) v x hx
  exact (List.mem_append.mp hy).symm.imp List.mem_singleton.mp id

/-- **Records that are objects do no harm**, in any run. -/
theorem takesWell_of_objects (hobjects : ∀ msg ∈ records, ∀ c payload,
    cfg.delivery msg = some (c, payload) → ∃ kvs, payload = .obj kvs) (schedule : List Signal) :
    Transition.Guarded (Process.step cfg) TakesWell (.start cfg records) schedule := by
  have hinv : Transition.Always (Process.step cfg)
      (fun p => ProcessInv p ∧ OffsetInv cfg p.consumer) (.start cfg records) schedule := by
    refine Transition.always_of_invariant (fun p a p' h hs => ⟨h.1.step hs, ?_⟩)
      ⟨.start cfg records, .start hobjects⟩ schedule
    cases Process.stepped_of_step hs with
    | ran hstep => exact h.2.step h.1.table hstep
    | cancelled | collected => exact h.2
    | @put q qs hstop => exact h.2.enqueue_sentinel q
  refine hinv.guarded fun p a p' h hs ha w item rest hcpu hpc hqueue => ?_
  obtain rfl | hobject := h.2.items w item (by rw [hqueue]; exact List.mem_cons_self ..)
  · exact Or.inl rfl
  · obtain ⟨payload, hpayload⟩ := hobject.dict
    exact Or.inr (by rw [hpayload]; rfl)

/-! ### A list as a record -/

/-- The loop puts the list on the queue, and the worker takes it. -/
def listRun : List Signal :=
  [.resume .loop, .loop .read, .loop .put, .loop .awaitRecord, .resume (.worker 0),
    .worker .acquire, .worker .get].map .run

/-- **A list as a record.** Its worker dies and stays in `_conv_queues`. -/
theorem not_alive_unharmed :
    ¬ ∀ (cfg : Config) (records : List Record) (schedule : List Signal),
      Transition.Always (Process.step cfg) Process.Alive (.start cfg records) schedule ∧
        Transition.Guarded (Process.step cfg) (Unharmed cfg) (.start cfg records) schedule := by
  intro h
  have hlast := (h sampleConfig [sampleRecord listText] listRun).1.run rfl
  exact Bool.false_ne_true (hlast "conv-1" 0 rfl)

end Consumer

end TitanChat
