import TitanChat.StopConsumer
import TitanChat.WorkerOrder

/-!
# What the stop loses

`stop_consumer` is meant to let the workers finish. The sentinels that it puts are behind everything
that the loop has put on the queues, so that each worker handles its queue and leaves, and the
permit that it gives back lets another one in.

It fails if the loop is cancelled while it waits for room in a queue, with a payload in its hands;
if a payload was put behind the sentinel of a `chat_end`; if a worker takes something that is no
object; and if a worker waits for room in its own queue. It would also fail if the semaphore let a
worker in before an older one, since the sentinels are put in the order in which the workers were
created: the older one would wait for a permit, and the stop for room in its queue.

## Main definitions

* `Graceful`: the property
* `Smooth`: the condition on a step
* `GracefulInv`: the invariant

## Main results

* `GracefulInv.step`
* `graceful_of_guarded`: under the condition nothing is lost, and the stop returns
-/

namespace TitanChat

namespace Consumer

/-! ### The property and the condition -/

/-- The worker has not been let in. -/
def WorkerPc.waits : WorkerPc → Bool
  | .created | .acquiring => true
  | _ => false

theorem WorkerPc.waits_of_holds {pc : WorkerPc} (h : pc.holds) : pc.waits = false := by
  cases pc with
  | created | acquiring => exact absurd h Bool.false_ne_true
  | getting | handling item | putting q | exited | died => rfl

/-- **A graceful stop.** -/
structure Graceful (cfg : Config) (records : List Record) (p : Shutdown) : Prop where
  /-- When the stop returns, every payload whose record was taken has been handed to `_dispatch`. -/
  dispatched : p.phase = .returned → ∀ n < p.consumer.offset, ∀ msg, records[n]? = some msg →
    (cfg.delivery msg).isSome → p.consumer.Handed n
  /-- A run of the stop that cannot be continued has returned. -/
  returns : p.Called → (∀ a, p.step cfg a = none) → p.phase = .returned
  /-- And it can be continued only as long as handlers suspend. -/
  bounded : p.Called → ∃ n, ∀ as p', Transition.run (Shutdown.step cfg) p as = some p' →
    as.length ≤ n + 2 * as.countP StopSignal.suspends

/-- **The condition** on a step. -/
structure Smooth (cfg : Config) (p : Shutdown) (a : StopSignal) : Prop where
  /-- The loop is cancelled between two records. -/
  cancel : a = .process .cancel → p.consumer.loop = .fetching
  /-- A payload is put in front of every sentinel. -/
  put : ∀ b, a = .process (.run b) → PutOpen cfg p.consumer b
  /-- What a worker takes is an object or the sentinel. -/
  take : ∀ b, a = .process b → TakesWell p.process b
  /-- After a `chat_end` there is room for the sentinel. -/
  room : a = .process (.run (.worker .putSentinel)) → ∀ w q, p.consumer.cpu = some (.worker w) →
    (p.consumer.workers w).pc = .putting q → ¬cfg.full (p.consumer.workers q).queue
  /-- The semaphore lets the workers in as they were created. -/
  order : a = .process (.run (.worker .acquire)) → 0 < p.consumer.permits →
    ∀ w, p.consumer.cpu = some (.worker w) → ∀ v < w, (p.consumer.workers v).pc.waits = false

/-! ### Payloads that were taken -/

section State

variable {cfg : Config} {records : List Record} {s s' : State}

/-- Where the payload of record `n` is. -/
def State.Placed (s : State) (n : ℕ) : Prop :=
  s.Handed n ∨ s.Waiting n ∨ ∃ q item, s.loop = .putting q item ∧ item.offset = some n

/-- A worker moves on, and the loop with its item stays. -/
theorem State.Placed.imp {n : ℕ} (h : s.Placed n) (hhanded : s.Handed n → s'.Handed n)
    (hwaiting : s.Waiting n → s'.Handed n ∨ s'.Waiting n) (hloop : s'.loop = s.loop) :
    s'.Placed n := by
  obtain h | h | ⟨q, item, hl, hn⟩ := h
  · exact Or.inl (hhanded h)
  · exact (hwaiting h).imp_right Or.inl
  · exact Or.inr (Or.inr ⟨q, item, hloop.trans hl, hn⟩)

/-- The head of a queue is handed over. -/
theorem State.Placed.hand {n : ℕ} (h : s.Placed n) {w : ℕ} {item : Item} {rest : List Item}
    (hq : (s.workers w).queue = item :: rest) {pc : WorkerPc} (hpc : pc.live) (c : String) :
    State.Placed { s.modify w ({ · with queue := rest, pc := pc }) with
      dispatched := s.dispatched ++ [(c, item)] } n := by
  refine h.imp ?_ ?_ rfl
  · rintro ⟨e, he, hn⟩
    exact ⟨e, List.mem_append_left _ he, hn⟩
  · intro hwaiting
    obtain hn | hwaiting := hwaiting.take hq pc hpc
    · exact Or.inl ⟨_, List.mem_append_right _ (List.mem_singleton_self _), hn⟩
    · exact Or.inr hwaiting

/-- **A payload stays somewhere.** -/
theorem State.Placed.step {n : ℕ} (h : s.Placed n) (ht : TableInv s) {a : Action}
    (hs : Consumer.step cfg s a = some s') (hput : PutOpen cfg s a)
    (htake : a = .worker .get → ∀ w item rest, s.cpu = some (.worker w) →
      (s.workers w).pc = .getting → (s.workers w).queue = item :: rest →
      item = .sentinel ∨ item.value.dict?.isSome) : s'.Placed n := by
  cases stepped_of_step hs with
  | resumed | awaitsRecord | putWaits | getWaits | suspended | sentinelWaits => exact h
  | skipped cpu loop | delivered cpu loop =>
    obtain h | h | ⟨q, item, hl, -⟩ := h
    · exact Or.inl h
    · exact Or.inr (Or.inl h)
    · exact LoopPc.noConfusion (loop.symm.trans hl)
  | created cpu loop =>
    obtain h | ⟨v, hv, hrest⟩ | ⟨q, item, hl, -⟩ := h
    · exact Or.inl h
    · have hne : v ≠ s.created := (ht.lt_created hv).ne
      exact Or.inr (Or.inl ⟨v, by simpa [hne] using hv, by simpa [hne] using hrest⟩)
    · exact LoopPc.noConfusion (loop.symm.trans hl)
  | @put q item cpu loop room =>
    obtain h | h | ⟨q', item', hl, hn⟩ := h
    · exact Or.inl h
    · exact Or.inr (Or.inl (h.enqueue q item))
    · obtain ⟨rfl, rfl⟩ := LoopPc.putting.inj (loop.symm.trans hl)
      obtain ⟨hlive, hopen⟩ := hput rfl q item loop room
      refine Or.inr (Or.inl ⟨q, ?_, (s.workers q).queue, item, [], ?_, hn, hopen⟩)
      · simpa [State.enqueue] using hlive
      · simp [State.enqueue]
  | acquired | acquireWaits | ended | chatEnded =>
    exact h.imp id (fun hw => Or.inr (hw.setPc rfl)) rfl
  | @exited w item rest cpu pc queue null =>
    refine h.imp id (fun hw => Or.inr (hw.exit queue null ?_)) rfl
    obtain rfl | hdict := htake rfl w item rest cpu pc queue
    · exact Option.some_ne_none n ∘ Eq.symm
    · rw [null] at hdict
      exact absurd hdict Bool.false_ne_true
  | @died w item rest cpu pc queue notNull notDict =>
    obtain rfl | hdict := htake rfl w item rest cpu pc queue
    · exact absurd rfl notNull
    · rw [notDict] at hdict
      exact absurd hdict Bool.false_ne_true
  | handed cpu pc queue => exact h.hand queue rfl _
  | dropped cpu pc queue => exact h.hand queue rfl _
  | sentinelPut => exact h.imp id (fun hw => Or.inr ((hw.enqueue _ _).setPc rfl)) rfl

/-! ### Queues and workers -/

theorem convWorkers_step {a : Action} (hs : Consumer.step cfg s a = some s')
    (h : s.convWorkers = s.convQueues) : s'.convWorkers = s'.convQueues := by
  cases stepped_of_step hs with
  | created =>
    dsimp only
    rw [h]
  | exited =>
    dsimp only [State.exit, State.setPc, State.modify]
    rw [h]
  | resumed | skipped | delivered | awaitsRecord | putWaits | put | acquired | acquireWaits
  | getWaits | died | handed | dropped | suspended | ended | chatEnded | sentinelWaits
  | sentinelPut => exact h

/-- No queue is longer than it may be. -/
def State.Bounded (cfg : Config) (s : State) : Prop :=
  0 < cfg.maxQueueSize → ∀ w, (s.workers w).queue.length ≤ cfg.maxQueueSize

theorem not_full_of_lt {queue : List Item} (h : queue.length < cfg.maxQueueSize) :
    ¬cfg.full queue := by
  rw [Config.full, Bool.and_eq_true, decide_eq_true_eq, decide_eq_true_eq]
  exact fun hfull => absurd hfull.2 h.not_ge

theorem lt_of_not_full {queue : List Item} (hsize : 0 < cfg.maxQueueSize)
    (h : ¬cfg.full queue) : queue.length < cfg.maxQueueSize := by
  rw [Config.full, Bool.and_eq_true, decide_eq_true_eq, decide_eq_true_eq] at h
  exact Nat.lt_of_not_le fun hle => h ⟨hsize, hle⟩

theorem not_full_of_size (h : cfg.maxQueueSize = 0) (queue : List Item) : ¬cfg.full queue := by
  simp [Config.full, h]

/-- One worker changes, and its queue is as short as it may be. -/
theorem State.Bounded.modify (h : s.Bounded cfg) {w : ℕ} {f : Worker → Worker}
    (hf : 0 < cfg.maxQueueSize → (f (s.workers w)).queue.length ≤ cfg.maxQueueSize)
    (hsame : s'.workers = (s.modify w f).workers) : s'.Bounded cfg := by
  intro hsize v
  rw [hsame, State.modify_workers]
  split
  · exact hf hsize
  · exact h hsize v

theorem State.Bounded.enqueue (h : s.Bounded cfg) {q : ℕ} (item : Item)
    (hroom : ¬cfg.full (s.workers q).queue) : (s.enqueue q item).Bounded cfg := by
  refine h.modify (f := fun wk => { wk with queue := wk.queue ++ [item] }) (fun hsize => ?_) rfl
  rw [List.length_append, List.length_singleton]
  exact lt_of_not_full hsize hroom

theorem State.Bounded.tail (h : s.Bounded cfg) {w : ℕ} {item : Item} {rest : List Item}
    (hq : (s.workers w).queue = item :: rest) (hsize : 0 < cfg.maxQueueSize) :
    rest.length < cfg.maxQueueSize := by
  have hlength := h hsize w
  rwa [hq, List.length_cons] at hlength

theorem State.Bounded.step (h : s.Bounded cfg) {a : Action}
    (hs : Consumer.step cfg s a = some s') : s'.Bounded cfg := by
  cases stepped_of_step hs with
  | resumed | skipped | delivered | awaitsRecord | putWaits | getWaits | suspended
  | sentinelWaits => exact h
  | created =>
    intro hsize v
    by_cases hv : v = s.created
    · rw [hv]
      simp
    · simpa [hv] using h hsize v
  | put cpu loop room => exact h.enqueue _ room
  | @acquired w => exact h.modify (f := ({ · with pc := .getting })) (fun hsize => h hsize w) rfl
  | @acquireWaits w =>
    exact h.modify (f := ({ · with pc := .acquiring })) (fun hsize => h hsize w) rfl
  | @exited w item rest cpu pc queue =>
    refine h.modify (w := w) (f := ({ · with queue := rest, pc := .exited }))
      (fun hsize => (h.tail queue hsize).le) ?_
    exact s.workers_exit w rest
  | @died w item rest cpu pc queue =>
    refine h.modify (w := w) (f := ({ · with queue := rest, pc := .died }))
      (fun hsize => (h.tail queue hsize).le) ?_
    exact s.workers_die w rest
  | @handed w item rest _ _ cpu pc queue =>
    exact h.modify (f := ({ · with queue := rest, pc := .handling item }))
      (fun hsize => (h.tail queue hsize).le) rfl
  | @dropped w item rest _ cpu pc queue =>
    exact h.modify (f := ({ · with queue := rest, pc := .getting }))
      (fun hsize => (h.tail queue hsize).le) rfl
  | @ended w => exact h.modify (f := ({ · with pc := .getting })) (fun hsize => h hsize w) rfl
  | @chatEnded w q =>
    exact h.modify (f := ({ · with pc := .putting q })) (fun hsize => h hsize w) rfl
  | @sentinelPut w q cpu pc room =>
    exact (h.enqueue .sentinel room).modify (f := ({ · with pc := .getting }))
      (fun hsize => h.enqueue .sentinel room hsize w) rfl

/-- The workers are let in as they were created. -/
def State.Admitted (s : State) : Prop :=
  ∀ v w, v < w → w < s.created → (s.workers v).pc.waits → (s.workers w).pc.waits

/-- One worker changes, and waits as before. -/
theorem State.Admitted.modify (h : s.Admitted) {w : ℕ} {f : Worker → Worker}
    (hf : (f (s.workers w)).pc.waits = (s.workers w).pc.waits)
    (hsame : s'.workers = (s.modify w f).workers) (hcreated : s'.created = s.created) :
    s'.Admitted := by
  have hwaits (v : ℕ) : (s'.workers v).pc.waits = (s.workers v).pc.waits := by
    rw [hsame, State.modify_workers]
    split
    · next hv => rw [hv, hf]
    · rfl
  intro u v hlt hv
  rw [hwaits, hwaits]
  exact h u v hlt (hcreated ▸ hv)

theorem State.Admitted.step (h : s.Admitted) (ht : TableInv s) {a : Action}
    (hs : Consumer.step cfg s a = some s')
    (horder : a = .worker .acquire → 0 < s.permits → ∀ w, s.cpu = some (.worker w) →
      ∀ v < w, (s.workers v).pc.waits = false) : s'.Admitted := by
  cases stepped_of_step hs with
  | resumed | skipped | delivered | awaitsRecord | putWaits | getWaits | suspended
  | sentinelWaits => exact h
  | created =>
    intro u v hlt hv hu
    obtain hv | rfl := Nat.lt_succ_iff_lt_or_eq.mp hv
    · have hne : u ≠ s.created := (hlt.trans hv).ne
      have hne' : v ≠ s.created := hv.ne
      simp only [Function.update_of_ne hne, Function.update_of_ne hne'] at hu ⊢
      exact h u v hlt hv hu
    · simp [WorkerPc.waits]
  | @put q item =>
    exact h.modify (f := fun wk => { wk with queue := wk.queue ++ [item] }) rfl rfl rfl
  | @acquired w cpu pc free =>
    intro u v hlt hv hu
    have hu : u ≠ w ∧ (s.workers u).pc.waits := by
      by_cases huw : u = w
      · simp [State.setPc, huw, WorkerPc.waits] at hu
      · exact ⟨huw, by simpa [State.setPc, huw] using hu⟩
    have hvw : v ≠ w := by
      rintro rfl
      have hno := horder rfl free v cpu u hlt
      rw [hno] at hu
      exact absurd hu.2 Bool.false_ne_true
    simpa [State.setPc, hvw] using h u v hlt hv hu.2
  | @acquireWaits w cpu pc =>
    refine h.modify (f := ({ · with pc := .acquiring })) ?_ rfl rfl
    obtain pc | pc := pc
    · rw [pc]; rfl
    · rw [pc]
  | @exited w item rest cpu pc =>
    refine h.modify (w := w) (f := ({ · with queue := rest, pc := .exited })) (by rw [pc]; rfl) ?_
      rfl
    exact s.workers_exit w rest
  | @died w item rest cpu pc =>
    refine h.modify (w := w) (f := ({ · with queue := rest, pc := .died })) (by rw [pc]; rfl) ?_ rfl
    exact s.workers_die w rest
  | @handed w item rest _ _ cpu pc =>
    exact h.modify (f := ({ · with queue := rest, pc := .handling item })) (by rw [pc]; rfl) rfl rfl
  | @dropped w item rest _ cpu pc =>
    exact h.modify (f := ({ · with queue := rest, pc := .getting })) (by rw [pc]) rfl rfl
  | @ended w item b cpu pc =>
    exact h.modify (f := ({ · with pc := .getting })) (by rw [pc]; rfl) rfl rfl
  | @chatEnded w q item cpu pc =>
    exact h.modify (f := ({ · with pc := .putting q })) (by rw [pc]; rfl) rfl rfl
  | @sentinelPut w q cpu pc =>
    obtain rfl := ht.workerQueue w q pc
    refine h.modify (w := q)
      (f := fun wk => { wk with queue := wk.queue ++ [.sentinel], pc := .getting })
      (by rw [pc]; rfl) ?_ rfl
    rw [State.setPc_enqueue]

/-- A worker that puts a sentinel does so at once. -/
def State.PutsAtOnce (s : State) : Prop :=
  ∀ w q, (s.workers w).pc = .putting q → s.cpu = some (.worker w)

/-- The running worker has moved on, and puts nothing, or goes on running. -/
theorem State.PutsAtOnce.modify (h : s.PutsAtOnce) {w : ℕ} {f : Worker → Worker}
    (hcpu : s.cpu = some (.worker w)) (hsame : s'.workers = (s.modify w f).workers)
    (hf : (∀ q, (f (s.workers w)).pc ≠ .putting q) ∨ s'.cpu = some (.worker w)) :
    s'.PutsAtOnce := by
  intro v q hv
  rw [hsame, State.modify_workers] at hv
  split at hv
  · next heq =>
    obtain hf | hcpu' := hf
    · exact absurd hv (hf q)
    · rw [heq, hcpu']
  · next hne =>
    have heq := Option.some.inj ((h v q hv).symm.trans hcpu)
    exact absurd (Task.worker.inj heq) hne

theorem State.PutsAtOnce.step (h : s.PutsAtOnce) (ht : TableInv s) {a : Action}
    (hs : Consumer.step cfg s a = some s')
    (hroom : a = .worker .putSentinel → ∀ w q, s.cpu = some (.worker w) →
      (s.workers w).pc = .putting q → ¬cfg.full (s.workers q).queue) : s'.PutsAtOnce := by
  -- nobody puts a sentinel while the loop runs, or no task does
  have hnone (hcpu : ∀ w, s.cpu ≠ some (.worker w)) (w q : ℕ) : (s.workers w).pc ≠ .putting q :=
    fun hpc => hcpu w (h w q hpc)
  cases stepped_of_step hs with
  | resumed idle => exact fun w q hpc => absurd hpc (hnone (by rw [idle]; exact nofun) w q)
  | skipped cpu | delivered cpu | awaitsRecord cpu | putWaits cpu =>
    exact fun w q hpc => absurd hpc (hnone (by rw [cpu]; rintro w ⟨⟩) w q)
  | created cpu =>
    intro w q hpc
    refine absurd hpc ?_
    by_cases hw : w = s.created
    · simp [hw]
    · simpa [hw] using hnone (by rw [cpu]; rintro w ⟨⟩) w q
  | @put q item cpu =>
    intro w q' hpc
    have hpc : (s.workers w).pc = .putting q' := by rwa [← pc_enqueue q item]
    exact absurd hpc (hnone (by rw [cpu]; rintro w ⟨⟩) w q')
  | @acquired w cpu => exact h.modify (f := ({ · with pc := .getting })) cpu rfl (Or.inl nofun)
  | @acquireWaits w cpu =>
    exact h.modify (f := ({ · with pc := .acquiring })) cpu rfl (Or.inl nofun)
  | getWaits cpu pc | suspended cpu pc =>
    intro v q hpc
    obtain rfl := Task.worker.inj (Option.some.inj ((h v q hpc).symm.trans cpu))
    exact nomatch pc.symm.trans hpc
  | @sentinelWaits w q cpu pc full => exact absurd full (hroom rfl w q cpu pc)
  | @exited w item rest cpu =>
    refine h.modify (f := ({ · with queue := rest, pc := .exited })) cpu ?_ (Or.inl nofun)
    exact s.workers_exit w rest
  | @died w item rest cpu =>
    refine h.modify (f := ({ · with queue := rest, pc := .died })) cpu ?_ (Or.inl nofun)
    exact s.workers_die w rest
  | @handed w item rest _ _ cpu =>
    exact h.modify (f := ({ · with queue := rest, pc := .handling item })) cpu rfl (Or.inl nofun)
  | @dropped w item rest _ cpu =>
    exact h.modify (f := ({ · with queue := rest, pc := .getting })) cpu rfl (Or.inl nofun)
  | @ended w item b cpu => exact h.modify (f := ({ · with pc := .getting })) cpu rfl (Or.inl nofun)
  | @chatEnded w q item cpu =>
    exact h.modify (f := ({ · with pc := .putting q })) cpu rfl (Or.inr cpu)
  | @sentinelPut w q cpu pc =>
    obtain rfl := ht.workerQueue w q pc
    refine h.modify
      (f := fun wk => { wk with queue := wk.queue ++ [.sentinel], pc := .getting }) cpu ?_
      (Or.inl nofun)
    rw [State.setPc_enqueue]

/-- A worker that has exited has just done so, and left room in its queue, or nobody has touched its
queue. -/
theorem exited_of_step (ht : TableInv s) (hb : s.Bounded cfg) {a : Action}
    (hs : Consumer.step cfg s a = some s') (hput : PutOpen cfg s a) {w : ℕ} (hw : w < s'.created)
    (hexit : (s'.workers w).pc = .exited) : ¬cfg.full (s'.workers w).queue ∨
      w < s.created ∧ (s.workers w).pc = .exited ∧ (s'.workers w).queue = (s.workers w).queue := by
  have hmodify {v : ℕ} {f : Worker → Worker} (hf : (f (s.workers v)).pc.live)
      (hexit : ((s.modify v f).workers w).pc = .exited) :
      (s.workers w).pc = .exited ∧ ((s.modify v f).workers w).queue = (s.workers w).queue := by
    rw [State.modify_workers] at hexit ⊢
    split at hexit
    · rw [hexit] at hf
      exact absurd hf Bool.false_ne_true
    · next hne => exact ⟨hexit, by rw [if_neg hne]⟩
  cases stepped_of_step hs with
  | resumed | skipped | delivered | awaitsRecord | putWaits | getWaits | suspended
  | sentinelWaits => exact Or.inr ⟨hw, hexit, rfl⟩
  | created =>
    by_cases hne : w = s.created
    · simp [hne] at hexit
    · have hlt : w < s.created := Nat.lt_of_le_of_ne (Nat.le_of_lt_succ hw) hne
      exact Or.inr ⟨hlt, by simpa [hne] using hexit, by simp [hne]⟩
  | @put q item cpu loop room =>
    have hlive := (hput rfl q item loop room).1
    exact Or.inr ⟨hw, hmodify (f := fun wk => { wk with queue := wk.queue ++ [item] }) hlive hexit⟩
  | acquired => exact Or.inr ⟨hw, hmodify (f := ({ · with pc := .getting })) rfl hexit⟩
  | acquireWaits => exact Or.inr ⟨hw, hmodify (f := ({ · with pc := .acquiring })) rfl hexit⟩
  | @exited v item rest cpu pc queue =>
    by_cases hne : w = v
    · subst hne
      refine Or.inl ?_
      obtain hsize | hsize := Nat.eq_zero_or_pos cfg.maxQueueSize
      · exact not_full_of_size hsize _
      · simpa [State.exit, State.setPc] using not_full_of_lt (hb.tail queue hsize)
    · exact Or.inr ⟨hw, by simpa [State.exit, State.setPc, hne] using hexit,
        by simp [State.exit, State.setPc, hne]⟩
  | @died v item rest =>
    by_cases hne : w = v
    · simp [State.die, State.setPc, hne] at hexit
    · exact Or.inr ⟨hw, by simpa [State.die, State.setPc, hne] using hexit,
        by simp [State.die, State.setPc, hne]⟩
  | @handed v item rest =>
    exact Or.inr ⟨hw, hmodify (f := ({ · with queue := rest, pc := .handling item })) rfl hexit⟩
  | @dropped v item rest =>
    exact Or.inr ⟨hw, hmodify (f := ({ · with queue := rest, pc := .getting })) rfl hexit⟩
  | ended => exact Or.inr ⟨hw, hmodify (f := ({ · with pc := .getting })) rfl hexit⟩
  | @chatEnded v q => exact Or.inr ⟨hw, hmodify (f := ({ · with pc := .putting q })) rfl hexit⟩
  | @sentinelPut v q cpu pc =>
    obtain rfl := ht.workerQueue v q pc
    by_cases hne : w = q
    · simp [State.setPc, hne] at hexit
    · exact Or.inr ⟨hw, by simpa [State.setPc, State.enqueue, hne] using hexit,
        by simp [State.setPc, State.enqueue, hne]⟩

/-- Only the running worker changes. -/
theorem worker_of_step (ht : TableInv s) {a : Action} (hloop : a.movesLoop = false)
    (hs : Consumer.step cfg s a = some s') (w : ℕ) :
    s'.workers w = s.workers w ∨ s.cpu = some (.worker w) := by
  have hupdate {v : ℕ} (wk : Worker) (hcpu : s.cpu = some (.worker v)) :
      Function.update s.workers v wk w = s.workers w ∨ s.cpu = some (.worker w) := by
    by_cases hv : w = v
    · exact Or.inr (hv ▸ hcpu)
    · exact Or.inl (Function.update_of_ne hv ..)
  cases stepped_of_step hs with
  | skipped | delivered | created | awaitsRecord | putWaits | put => exact absurd hloop nofun
  | resumed | getWaits | suspended | sentinelWaits => exact Or.inl rfl
  | acquired cpu | acquireWaits cpu | handed cpu | dropped cpu | ended cpu | chatEnded cpu =>
    exact hupdate _ cpu
  | @exited v item rest cpu =>
    have h := hupdate { s.workers v with queue := rest, pc := .exited } cpu
    rw [State.workers_exit]
    exact h
  | @died v item rest cpu =>
    have h := hupdate { s.workers v with queue := rest, pc := .died } cpu
    rw [State.workers_die]
    exact h
  | @sentinelPut v q cpu pc =>
    obtain rfl := ht.workerQueue v q pc
    have h := hupdate { s.workers q with
      queue := (s.workers q).queue ++ [.sentinel], pc := .getting } cpu
    rw [State.setPc_enqueue]
    exact h

/-- No worker comes back. -/
theorem live_of_step (ht : TableInv s) {a : Action} (hloop : a.movesLoop = false)
    (hs : Consumer.step cfg s a = some s') {w : ℕ} (hlive : (s'.workers w).pc.live) :
    (s.workers w).pc.live := by
  obtain hsame | hcpu := worker_of_step ht hloop hs w
  · rwa [← hsame]
  · exact ht.cpu w hcpu

/-- A sentinel is queued for the worker. -/
def Worker.Sealed (wk : Worker) : Prop := ∃ x ∈ wk.queue, x.value = .null

/-- A sentinel is put, and the others stay. -/
theorem sealed_enqueue {q w : ℕ} (h : w ≠ q → (s.workers w).Sealed) :
    ((s.enqueue q .sentinel).workers w).Sealed := by
  rw [State.enqueue, State.modify_workers]
  split
  · exact ⟨.sentinel, List.mem_append_right _ (List.mem_singleton_self _), rfl⟩
  · next hne => exact h hne

/-- A worker leaves its loop when it takes a sentinel. -/
theorem sealed_of_step (ht : TableInv s) {a : Action} (hloop : a.movesLoop = false)
    (hs : Consumer.step cfg s a = some s') {w : ℕ} (hlive : (s'.workers w).pc.live)
    (h : (s.workers w).Sealed) : (s'.workers w).Sealed := by
  have htake {item : Item} {rest : List Item} {v : ℕ} (hq : (s.workers v).queue = item :: rest)
      (hitem : item.value ≠ .null) (pc : WorkerPc) :
      ((s.modify v ({ · with queue := rest, pc := pc })).workers w).Sealed := by
    rw [State.modify_workers]
    split
    · next hv =>
      obtain ⟨x, hx, hnull⟩ := h
      rw [hv, hq] at hx
      obtain rfl | hx := List.mem_cons.mp hx
      · exact absurd hnull hitem
      · exact ⟨x, hx, hnull⟩
    · exact h
  have hmodify {v : ℕ} {f : Worker → Worker} (hf : (s.workers v).queue ⊆ (f (s.workers v)).queue) :
      ((s.modify v f).workers w).Sealed := by
    rw [State.modify_workers]
    split
    · next hv =>
      obtain ⟨x, hx, hnull⟩ := h
      exact ⟨x, hf (hv ▸ hx), hnull⟩
    · exact h
  have hdict {item : Item} {payload : Dict Json} (hitem : item.value.dict? = some payload) :
      item.value ≠ .null := by
    intro hnull
    rw [hnull] at hitem
    exact absurd hitem nofun
  cases stepped_of_step hs with
  | skipped | delivered | created | awaitsRecord | putWaits | put => exact absurd hloop nofun
  | resumed | getWaits | suspended | sentinelWaits => exact h
  | acquired => exact hmodify (f := ({ · with pc := .getting })) (List.Subset.refl _)
  | acquireWaits => exact hmodify (f := ({ · with pc := .acquiring })) (List.Subset.refl _)
  | ended => exact hmodify (f := ({ · with pc := .getting })) (List.Subset.refl _)
  | @chatEnded v q => exact hmodify (f := ({ · with pc := .putting q })) (List.Subset.refl _)
  | handed cpu pc queue dict => exact htake queue (hdict dict) _
  | dropped cpu pc queue dict => exact htake queue (hdict dict) _
  | @exited v item rest =>
    have hne : w ≠ v := by
      rintro rfl
      simp [State.exit, State.setPc, WorkerPc.live] at hlive
    simpa [State.exit, State.setPc, State.modify, hne] using h
  | @died v item rest =>
    have hne : w ≠ v := by
      rintro rfl
      simp [State.die, State.setPc, WorkerPc.live] at hlive
    simpa [State.die, State.setPc, State.modify, hne] using h
  | @sentinelPut v q cpu pc =>
    obtain rfl := ht.workerQueue v q pc
    have hsealed := hmodify
      (f := fun wk => { wk with queue := wk.queue ++ [.sentinel], pc := .getting })
      (List.subset_append_left (s.workers q).queue [.sentinel])
    rw [State.setPc_enqueue]
    exact hsealed

theorem loop_of_step {a : Action} (hloop : a.movesLoop = false)
    (hs : Consumer.step cfg s a = some s') : s'.loop = s.loop := by
  cases stepped_of_step hs with
  | skipped | delivered | created | awaitsRecord | putWaits | put => exact absurd hloop nofun
  | resumed | acquired | acquireWaits | getWaits | exited | died | handed | dropped | suspended
  | ended | chatEnded | sentinelWaits | sentinelPut => rfl

/-- The payload of every record that was read is somewhere. -/
def State.AllPlaced (cfg : Config) (records : List Record) (s : State) : Prop :=
  ∀ n < s.offset, ∀ msg, records[n]? = some msg → (cfg.delivery msg).isSome → s.Placed n

theorem State.AllPlaced.step (h : s.AllPlaced cfg records) (ht : TableInv s)
    (hinput : s.input = records.drop s.offset) {a : Action}
    (hs : Consumer.step cfg s a = some s') (hput : PutOpen cfg s a)
    (htake : a = .worker .get → ∀ w item rest, s.cpu = some (.worker w) →
      (s.workers w).pc = .getting → (s.workers w).queue = item :: rest →
      item = .sentinel ∨ item.value.dict?.isSome) : s'.AllPlaced cfg records := by
  intro n hn msg hmsg hdelivery
  have hold (hlt : n < s.offset) : s'.Placed n :=
    (h n hlt msg hmsg hdelivery).step ht hs hput htake
  have hread {msg' : Record} {rest : List Record} (hcons : s.input = msg' :: rest)
      (heq : n = s.offset) : msg = msg' := by
    have hhead : records[s.offset]? = some msg' := by
      rw [← List.head?_drop, ← hinput, hcons, List.head?_cons]
    exact Option.some.inj ((heq ▸ hmsg).symm.trans hhead)
  cases stepped_of_step hs with
  | skipped cpu loop input skip =>
    obtain hlt | heq := Nat.lt_succ_iff_lt_or_eq.mp hn
    · exact hold hlt
    · rw [hread input heq, skip] at hdelivery
      exact absurd hdelivery nofun
  | delivered | created =>
    obtain hlt | rfl := Nat.lt_succ_iff_lt_or_eq.mp hn
    · exact hold hlt
    · exact Or.inr (Or.inr ⟨_, _, rfl, rfl⟩)
  | resumed | awaitsRecord | putWaits | put | acquired | acquireWaits | getWaits | exited | died
  | handed | dropped | suspended | ended | chatEnded | sentinelWaits | sentinelPut => exact hold hn

end State

/-! ### Steps of the workers -/

/-- While a worker runs, the loop takes no step. -/
theorem movesLoop_of_step {cfg : Config} {s s' : State} {w : ℕ} (hcpu : s.cpu = some (.worker w))
    {a : Action} (hs : Consumer.step cfg s a = some s') : a.movesLoop = false := by
  cases a with
  | resume t => simp [Consumer.step, hcpu] at hs
  | loop a => simp [Consumer.step, hcpu] at hs
  | worker a => rfl

/-- What a worker can do, it can do during the stop. -/
theorem Shutdown.exists_step_of_run {cfg : Config} {p : Shutdown} {a : Action}
    (hloop : a.movesLoop = false) (hs : Consumer.step cfg p.consumer a ≠ none) :
    ∃ a, p.step cfg a ≠ none := by
  obtain ⟨s, hs⟩ := Option.ne_none_iff_exists'.mp hs
  have hs : Consumer.step cfg p.process.consumer a = some s := hs
  refine ⟨.process (.run a), ?_⟩
  cases hstop : p.process.stop <;> simp [Shutdown.step, Process.step, hstop, hloop, hs]

/-! ### The invariant -/

/-- `stop_consumer` has not put its sentinel on the queue. -/
def Shutdown.ToPut (p : Shutdown) (q : ℕ) : Prop := ∀ qs, p.process.stop = .putting qs → q ∈ qs

/-- What every step keeps under the condition. -/
structure GracefulInv (cfg : Config) (records : List Record) (p : Shutdown) : Prop where
  process : ProcessInv p.process
  permits : PermitInv cfg p.consumer
  input : p.consumer.input = records.drop p.consumer.offset
  convWorkers : p.consumer.convWorkers = p.consumer.convQueues
  bounded : p.consumer.Bounded cfg
  undead : ∀ w, (p.consumer.workers w).pc ≠ .died
  placed : p.consumer.AllPlaced cfg records
  admitted : p.consumer.Admitted
  putsAtOnce : p.consumer.PutsAtOnce
  /-- A worker that has exited leaves room for the sentinel that is still to come. -/
  room : ∀ w < p.consumer.created, p.ToPut w → (p.consumer.workers w).pc = .exited →
    ¬cfg.full (p.consumer.workers w).queue
  stopped : p.Called → p.consumer.loop = .fetching ∧ p.consumer.cpu ≠ some .loop
  sorted : ∀ qs, p.process.stop = .putting qs → qs.Pairwise (· < ·)
  /-- The workers whose sentinel has been put. -/
  sealed : ∀ qs, p.process.stop = .putting qs → ∀ w, (p.consumer.workers w).pc.live → w ∉ qs →
    (p.consumer.workers w).Sealed
  phase : p.phase ≠ .stopping → p.process.stop = .putting []
  gathering : ∀ ws, p.phase = .gathering ws → ∀ w, (p.consumer.workers w).pc.live → w ∈ ws
  returned : p.phase = .returned → ∀ w, (p.consumer.workers w).pc.live = false

namespace GracefulInv

variable {cfg : Config} {records : List Record} {p p' : Shutdown}

theorem start (cfg : Config) (records : List Record) :
    GracefulInv cfg records (.start cfg records) where
  process := .start cfg records
  permits := .start cfg records
  input := rfl
  convWorkers := rfl
  bounded _ _ := Nat.zero_le _
  undead _ := nofun
  placed n hn := absurd hn (Nat.not_lt_zero n)
  admitted _ w _ hw := absurd hw (Nat.not_lt_zero w)
  putsAtOnce _ _ := nofun
  room w hw := absurd hw (Nat.not_lt_zero w)
  stopped hcalled := absurd rfl hcalled
  sorted _ := nofun
  sealed _ := nofun
  phase hphase := absurd rfl hphase
  gathering _ := nofun
  returned := nofun

/-- A task takes a step. -/
theorem run (h : GracefulInv cfg records p) {a : Action} {process' : Process}
    (hs : p.process.step cfg (.run a) = some process')
    (hsmooth : Smooth cfg p (.process (.run a))) :
    GracefulInv cfg records { p with process := process' } := by
  have hprocess := h.process.step hs
  have hundead := undead_step hs (hsmooth.take _ rfl) h.undead
  obtain ⟨s, hstep, rfl, hloop⟩ := Shutdown.exists_of_run hs
  have ht : TableInv p.consumer := h.process.table
  have hput := hsmooth.put a rfl
  have htake : a = .worker .get → ∀ w item rest, p.consumer.cpu = some (.worker w) →
      (p.consumer.workers w).pc = .getting → (p.consumer.workers w).queue = item :: rest →
      item = .sentinel ∨ item.value.dict?.isSome := by
    rintro rfl
    exact hsmooth.take _ rfl rfl
  have hcalled (hphase : p.phase ≠ .stopping) : a.movesLoop = false :=
    hloop (by rw [Shutdown.Called, h.phase hphase]; exact nofun)
  exact
    { process := hprocess
      permits := h.permits.step ht hstep
      input := input_step h.input hstep
      convWorkers := convWorkers_step hstep h.convWorkers
      bounded := h.bounded.step hstep
      undead := hundead
      placed := h.placed.step ht h.input hstep hput htake
      admitted := h.admitted.step ht hstep (by rintro rfl; exact hsmooth.order rfl)
      putsAtOnce := h.putsAtOnce.step ht hstep (by rintro rfl; exact hsmooth.room rfl)
      room := fun w hw hto hexit => by
        obtain hroom | ⟨hw, hexit, hqueue⟩ := exited_of_step ht h.bounded hstep hput hw hexit
        · exact hroom
        · have hroom := h.room w hw hto hexit
          rwa [← hqueue] at hroom
      stopped := fun hcall =>
        ⟨(loop_of_step (hloop hcall) hstep).trans (h.stopped hcall).1,
          cpu_of_step (hloop hcall) hstep (h.stopped hcall).2⟩
      sorted := h.sorted
      sealed := fun qs hstop w hlive hw => by
        have hno : a.movesLoop = false := hloop fun hrunning => nomatch hstop.symm.trans hrunning
        exact sealed_of_step ht hno hstep hlive
          (h.sealed qs hstop w (live_of_step ht hno hstep hlive) hw)
      phase := h.phase
      gathering := fun ws hphase w hlive => h.gathering ws hphase w
        (live_of_step ht (hcalled (by rw [hphase]; exact nofun)) hstep hlive)
      returned := fun hphase w => by
        by_contra hlive
        have hold := live_of_step ht (hcalled (by rw [hphase]; exact nofun)) hstep
          (Bool.eq_true_of_not_eq_false hlive)
        rw [h.returned hphase w] at hold
        exact absurd hold nofun }

/-- The stop is called. -/
theorem cancel (h : GracefulInv cfg records p) {process' : Process}
    (hs : p.process.step cfg .cancel = some process') (hsmooth : Smooth cfg p (.process .cancel)) :
    GracefulInv cfg records { p with process := process' } := by
  have hprocess := h.process.step hs
  obtain ⟨hstop, hcpu, rfl⟩ := Process.of_cancel hs
  exact
    { h with
      process := hprocess
      room := fun w hw _ => h.room w hw fun qs hqs => StopPc.noConfusion (hstop.symm.trans hqs)
      stopped := fun _ => ⟨hsmooth.cancel rfl, fun hloop =>
        Option.some_ne_none _ (hloop.symm.trans hcpu)⟩
      sorted := fun qs hqs => StopPc.noConfusion hqs
      sealed := fun qs hqs => StopPc.noConfusion hqs
      phase := fun hphase => StopPc.noConfusion (hstop.symm.trans (h.phase hphase)) }

/-- The list of the queues. -/
theorem collect (h : GracefulInv cfg records p) {process' : Process}
    (hs : p.process.step cfg .collect = some process') :
    GracefulInv cfg records { p with process := process' } := by
  have hprocess := h.process.step hs
  obtain ⟨hstop, -, rfl⟩ := Process.of_collect hs
  have hcalled : p.Called := fun hrunning => StopPc.noConfusion (hstop.symm.trans hrunning)
  exact
    { h with
      process := hprocess
      room := fun w hw _ => h.room w hw fun qs hqs => StopPc.noConfusion (hstop.symm.trans hqs)
      stopped := fun _ => h.stopped hcalled
      sorted := fun qs hqs => by
        obtain rfl := StopPc.putting.inj hqs
        exact List.pairwise_lt_range.filter _
      sealed := fun qs hqs w hlive hw => by
        obtain rfl := StopPc.putting.inj hqs
        have ht : TableInv p.consumer := h.process.table
        refine absurd ?_ hw
        exact List.mem_filter.mpr
          ⟨List.mem_range.mpr (ht.lt_created hlive), decide_eq_true (ht.own w hlive)⟩
      phase := fun hphase => StopPc.noConfusion (hstop.symm.trans (h.phase hphase)) }

/-- A sentinel is put. -/
theorem putSentinel (h : GracefulInv cfg records p) {process' : Process}
    (hs : p.process.step cfg .putSentinel = some process') :
    GracefulInv cfg records { p with process := process' } := by
  have hprocess := h.process.step hs
  obtain ⟨q, qs, hstop, hcpu, hroom, rfl⟩ := Process.of_putSentinel hs
  have hpc (w : ℕ) : ((p.process.consumer.enqueue q .sentinel).workers w).pc =
      (p.process.consumer.workers w).pc := pc_enqueue q .sentinel w
  have hsorted := List.pairwise_cons.mp (h.sorted _ hstop)
  have hphase : p.phase = .stopping := by
    by_contra hne
    exact List.cons_ne_nil q qs (StopPc.putting.inj (hstop.symm.trans (h.phase hne)))
  exact
    { h with
      process := hprocess
      permits := h.permits.of_holds rfl (PermitInv.modify_holds_iff p.process.consumer q
        (f := fun wk => { wk with queue := wk.queue ++ [.sentinel] }) Iff.rfl)
      bounded := h.bounded.enqueue .sentinel hroom
      undead := fun w => (hpc w).trans_ne (h.undead w)
      placed := fun n hn msg hmsg hdelivery => (h.placed n hn msg hmsg hdelivery).imp id
        (fun hwaiting => Or.inr (hwaiting.enqueue q .sentinel)) rfl
      admitted := h.admitted.modify
        (f := fun wk => { wk with queue := wk.queue ++ [.sentinel] }) rfl rfl rfl
      putsAtOnce := fun w q' hput => h.putsAtOnce w q' ((hpc w).symm.trans hput)
      room := fun w hw hto hexit => by
        have hmem : w ∈ qs := hto qs rfl
        have hne : w ≠ q := (hsorted.1 w hmem).ne'
        have hqueue : ((p.process.consumer.enqueue q .sentinel).workers w).queue =
            (p.process.consumer.workers w).queue := by
          rw [State.enqueue, State.modify_workers, if_neg hne]
        have hfull := h.room w hw (fun qs' hqs' => by
          obtain rfl := StopPc.putting.inj (hstop.symm.trans hqs')
          exact List.mem_cons_of_mem q hmem) ((hpc w).symm.trans hexit)
        rwa [Shutdown.consumer, ← hqueue] at hfull
      stopped := fun _ => h.stopped fun hrunning => StopPc.noConfusion (hstop.symm.trans hrunning)
      sorted := fun qs' hqs' => by
        obtain rfl := StopPc.putting.inj hqs'
        exact hsorted.2
      sealed := fun qs' hqs' w hlive hw => by
        obtain rfl := StopPc.putting.inj hqs'
        refine sealed_enqueue fun hwq => ?_
        exact h.sealed _ hstop w ((congrArg _ (hpc w)).symm.trans hlive)
          fun hmem => (List.mem_cons.mp hmem).elim hwq hw
      phase := absurd hphase
      gathering := fun ws hws => Phase.noConfusion (hphase.symm.trans hws)
      returned := fun hreturned => Phase.noConfusion (hphase.symm.trans hreturned) }

/-- **A step keeps the invariant** under the condition. -/
theorem step (h : GracefulInv cfg records p) {a : StopSignal} (hsmooth : Smooth cfg p a)
    (hs : p.step cfg a = some p') : GracefulInv cfg records p' := by
  cases Shutdown.stepped_of_step hs with
  | @process b process' hprocess =>
    cases b with
    | run b => exact h.run hprocess hsmooth
    | cancel => exact h.cancel hprocess hsmooth
    | collect => exact h.collect hprocess
    | putSentinel => exact h.putSentinel hprocess
  | gathered hphase hstop hcpu =>
    have ht : TableInv p.consumer := h.process.table
    exact
      { h with
        phase := fun _ => hstop
        gathering := fun ws hws w hlive => by
          obtain rfl := Phase.gathering.inj hws
          refine List.mem_filter.mpr ⟨List.mem_range.mpr (ht.lt_created hlive), decide_eq_true ?_⟩
          rw [h.convWorkers]
          exact ht.own w hlive
        returned := nofun }
  | @finished ws hphase hended =>
    exact
      { h with
        phase := fun _ => h.phase (by rw [hphase]; exact nofun)
        gathering := nofun
        returned := fun _ w => by
          by_contra hlive
          have hlive : (p.consumer.workers w).pc.live = true := Bool.eq_true_of_not_eq_false hlive
          exact nomatch hlive.symm.trans (hended w (h.gathering ws hphase w hlive)) }

/-! ### The stop is never stuck -/

/-- A worker that has been let in and has a sentinel is ready. -/
theorem ready_of_holds (h : GracefulInv cfg records p) (hcpu : p.consumer.cpu = none) {w : ℕ}
    (hholds : (p.consumer.workers w).pc.holds) (hqueue : (p.consumer.workers w).queue ≠ []) :
    p.consumer.ready cfg (.worker w) := by
  cases hpc : (p.consumer.workers w).pc with
  | getting => simp [State.ready, hpc, hqueue]
  | handling item => simp [State.ready, hpc]
  | putting q => exact absurd ((h.putsAtOnce w q hpc).symm.trans hcpu) (Option.some_ne_none _)
  | created | acquiring | exited | died =>
    rw [hpc] at hholds
    exact absurd hholds Bool.false_ne_true

theorem queue_ne_nil {wk : Worker} (h : wk.Sealed) : wk.queue ≠ [] := by
  obtain ⟨x, hx, -⟩ := h
  exact List.ne_nil_of_mem hx

/-- A worker with something to do is ready, or all permits are taken. -/
theorem ready_or_acquiring (h : GracefulInv cfg records p) (hcpu : p.consumer.cpu = none) {w : ℕ}
    (hlive : (p.consumer.workers w).pc.live) (hqueue : (p.consumer.workers w).queue ≠ []) :
    p.consumer.ready cfg (.worker w) ∨
      (p.consumer.workers w).pc = .acquiring ∧ p.consumer.permits = 0 := by
  cases hpc : (p.consumer.workers w).pc with
  | created => exact Or.inl (by simp [State.ready, hpc])
  | acquiring =>
    obtain hzero | hfree := Nat.eq_zero_or_pos p.consumer.permits
    · exact Or.inr ⟨rfl, hzero⟩
    · exact Or.inl (by simp [State.ready, hpc, hfree])
  | getting | handling item | putting q =>
    exact Or.inl (h.ready_of_holds hcpu (by rw [hpc]; rfl) hqueue)
  | exited | died => rw [hpc] at hlive; exact absurd hlive Bool.false_ne_true

/-- Somebody holds the last permit. -/
theorem exists_holder (h : GracefulInv cfg records p) (hpermits : 0 < cfg.maxConcurrentConvs)
    (hzero : p.consumer.permits = 0) :
    ∃ v < p.consumer.created, (p.consumer.workers v).pc.holds := by
  have hcard := h.permits
  rw [PermitInv, hzero, Nat.add_zero] at hcard
  obtain ⟨v, hv⟩ := Finset.card_pos.mp (hcard ▸ hpermits)
  exact ⟨v, State.mem_holders.mp hv⟩

/-- **While the stop waits for a worker, some worker is ready.** -/
theorem exists_ready_of_full (h : GracefulInv cfg records p)
    (hpermits : 0 < cfg.maxConcurrentConvs) (hcpu : p.consumer.cpu = none) {q : ℕ} {qs : List ℕ}
    (hstop : p.process.stop = .putting (q :: qs))
    (hfull : cfg.full (p.consumer.workers q).queue) : ∃ w, p.consumer.ready cfg (.worker w) := by
  have hq : q < p.consumer.created := h.process.stop _ hstop q List.mem_cons_self
  have hqueue : (p.consumer.workers q).queue ≠ [] := by
    intro hnil
    rw [hnil, Config.full, Bool.and_eq_true, decide_eq_true_eq, decide_eq_true_eq] at hfull
    exact absurd (hfull.1.trans_le hfull.2) (lt_irrefl 0)
  have hlive : (p.consumer.workers q).pc.live := by
    cases hpc : (p.consumer.workers q).pc with
    | exited =>
      refine absurd hfull (h.room q hq (fun qs' hqs' => ?_) hpc)
      obtain rfl := StopPc.putting.inj (hstop.symm.trans hqs')
      exact List.mem_cons_self
    | died => exact absurd hpc (h.undead q)
    | created | acquiring | getting | handling item | putting q => rfl
  obtain hready | ⟨hpc, hzero⟩ := h.ready_or_acquiring hcpu hlive hqueue
  · exact ⟨q, hready⟩
  · -- the permits are with older workers, which have their sentinels
    obtain ⟨v, hv, hholds⟩ := h.exists_holder hpermits hzero
    have hlt : v < q := by
      obtain hlt | rfl | hlt := Nat.lt_trichotomy v q
      · exact hlt
      · rw [hpc] at hholds
        exact absurd hholds Bool.false_ne_true
      · have hwaits := h.admitted q v hlt hv (by rw [hpc]; rfl)
        rw [WorkerPc.waits_of_holds hholds] at hwaits
        exact absurd hwaits Bool.false_ne_true
    have hnot : v ∉ q :: qs := by
      rw [List.mem_cons]
      rintro (rfl | hmem)
      · exact absurd hlt (lt_irrefl v)
      · exact absurd (hlt.trans ((List.pairwise_cons.mp (h.sorted _ hstop)).1 v hmem)) (lt_irrefl v)
    have hsealed := h.sealed _ hstop v (WorkerPc.live_of_holds hholds) hnot
    exact ⟨v, h.ready_of_holds hcpu hholds (queue_ne_nil hsealed)⟩

theorem exists_ready_of_live (h : GracefulInv cfg records p)
    (hpermits : 0 < cfg.maxConcurrentConvs) (hcpu : p.consumer.cpu = none)
    (hstop : p.process.stop = .putting []) {w : ℕ} (hlive : (p.consumer.workers w).pc.live) :
    ∃ v, p.consumer.ready cfg (.worker v) := by
  have hsealed (v : ℕ) (hv : (p.consumer.workers v).pc.live) : (p.consumer.workers v).Sealed :=
    h.sealed _ hstop v hv List.not_mem_nil
  obtain hready | ⟨-, hzero⟩ := h.ready_or_acquiring hcpu hlive (queue_ne_nil (hsealed w hlive))
  · exact ⟨w, hready⟩
  · obtain ⟨v, -, hholds⟩ := h.exists_holder hpermits hzero
    have hv := hsealed v (WorkerPc.live_of_holds hholds)
    exact ⟨v, h.ready_of_holds hcpu hholds (queue_ne_nil hv)⟩

/-- **The stop can go on until it returns.** -/
theorem exists_step (h : GracefulInv cfg records p) (hpermits : 0 < cfg.maxConcurrentConvs)
    (hcalled : p.Called) (hphase : p.phase ≠ .returned) : ∃ a, p.step cfg a ≠ none := by
  have hresume (hcpu : p.consumer.cpu = none)
      (hready : ∃ w, p.consumer.ready cfg (.worker w)) : ∃ a, p.step cfg a ≠ none := by
    obtain ⟨w, hready⟩ := hready
    refine Shutdown.exists_step_of_run (a := .resume (.worker w)) rfl ?_
    rw [Consumer.step, if_pos ⟨hcpu, hready⟩]
    exact Option.some_ne_none _
  cases hcpu : p.consumer.cpu with
  | some t =>
    cases t with
    | loop => exact absurd hcpu (h.stopped hcalled).2
    | worker w =>
      obtain ⟨a, s, -, hs, -⟩ := exists_step_of_running cfg (fun _ => false) h.process.table hcpu
      refine Shutdown.exists_step_of_run (movesLoop_of_step hcpu hs) ?_
      rw [Shutdown.consumer, hs]
      exact Option.some_ne_none s
  | none =>
    have hidle : p.process.consumer.cpu = none := hcpu
    cases hstop : p.process.stop with
    | running => exact absurd hstop hcalled
    | cancelling => exact ⟨.process .collect, by simp [Shutdown.step, Process.step, hstop, hidle]⟩
    | putting qs =>
      cases qs with
      | cons q qs =>
        by_cases hfull : cfg.full (p.consumer.workers q).queue
        · exact hresume hcpu (h.exists_ready_of_full hpermits hcpu hstop hfull)
        · have hroom : cfg.full (p.process.consumer.workers q).queue = false :=
            Bool.eq_false_iff.mpr hfull
          exact ⟨.process .putSentinel, by
            simp [Shutdown.step, Process.step, hstop, hidle, hroom]⟩
      | nil =>
        cases hp : p.phase with
        | stopping => exact ⟨.gather, by simp [Shutdown.step, hp, hstop, hcpu]⟩
        | returned => exact absurd hp hphase
        | gathering ws =>
          by_cases hended : ∀ w ∈ ws, (p.consumer.workers w).pc.live = false
          · refine ⟨.finish, ?_⟩
            simp only [Shutdown.step, hp, hcpu, true_and, if_pos hended]
            exact Option.some_ne_none _
          · push Not at hended
            obtain ⟨w, -, hlive⟩ := hended
            exact hresume hcpu (h.exists_ready_of_live hpermits hcpu hstop
              (Bool.eq_true_of_not_eq_false hlive))

/-- What the invariant says about the stop. -/
theorem graceful (h : GracefulInv cfg records p) (hpermits : 0 < cfg.maxConcurrentConvs) :
    Graceful cfg records p where
  dispatched hphase n hn msg hmsg hdelivery := by
    have hcalled : p.Called := by
      rw [Shutdown.Called, h.phase (by rw [hphase]; exact nofun)]
      exact nofun
    obtain hhanded | ⟨w, hlive, -⟩ | ⟨q, item, hloop, -⟩ := h.placed n hn msg hmsg hdelivery
    · exact hhanded
    · exact absurd (hlive.symm.trans (h.returned hphase w)) nofun
    · exact nomatch (h.stopped hcalled).1.symm.trans hloop
  returns hcalled hstuck := by
    by_contra hphase
    obtain ⟨a, ha⟩ := h.exists_step hpermits hcalled hphase
    exact ha (hstuck a)
  bounded hcalled :=
    ⟨p.rank cfg, fun _ _ hr =>
      Shutdown.length_le_of_run ⟨h.process, hcalled, (h.stopped hcalled).2⟩ hr⟩

end GracefulInv

/-! ### Runs -/

/-- **A stop that meets the condition is graceful.** Nothing that was taken is lost, and the stop
returns, in every state of a run. -/
theorem graceful_of_guarded (cfg : Config) (records : List Record)
    (hpermits : 0 < cfg.maxConcurrentConvs) (schedule : List StopSignal)
    (hguarded : Transition.Guarded (Shutdown.step cfg) (Smooth cfg) (.start cfg records) schedule) :
    Transition.Always (Shutdown.step cfg) (Graceful cfg records) (.start cfg records) schedule :=
  (Transition.always_of_guarded (I := GracefulInv cfg records)
    (fun _ _ _ h hsmooth hs => h.step hsmooth hs) (.start cfg records) hguarded).imp
    fun _ h => h.graceful hpermits

/-- Most steps cannot go wrong. -/
theorem Smooth.of_ne {cfg : Config} {p : Shutdown} {a : StopSignal}
    (hcancel : a ≠ .process .cancel) (hput : a ≠ .process (.run (.loop .put)))
    (hget : a ≠ .process (.run (.worker .get)))
    (hroom : a ≠ .process (.run (.worker .putSentinel)))
    (horder : a ≠ .process (.run (.worker .acquire))) : Smooth cfg p a where
  cancel h := absurd h hcancel
  put _ h hb := absurd (hb ▸ h) hput
  take _ h hb := absurd (hb ▸ h) hget
  room h := absurd h hroom
  order h := absurd h horder

/-- An ack, and a stop that is called while it is queued. -/
def ackRun : List StopSignal :=
  ([.resume .loop, .loop .read, .loop .put, .loop .awaitRecord] : List Action).map
      (fun a => .process (.run a)) ++
    [.process .cancel, .process .collect, .process .putSentinel, .gather] ++
    ([.resume (.worker 0), .worker .acquire, .worker .get, .worker .handlerReturns,
      .worker .get] : List Action).map (fun a => .process (.run a)) ++ [.finish]

theorem graceful_of_guarded_ack :
    Transition.Always (Shutdown.step sampleConfig)
      (Graceful sampleConfig [sampleRecord (ackText "m1")])
      (.start sampleConfig [sampleRecord (ackText "m1")]) ackRun := by
  refine graceful_of_guarded sampleConfig [sampleRecord (ackText "m1")] (by decide) ackRun ?_
  have hquiet {p : Shutdown} := @Smooth.of_ne sampleConfig p
  refine .cons rfl (hquiet nofun nofun nofun nofun nofun) ?_
  refine .cons rfl (hquiet nofun nofun nofun nofun nofun) ?_
  refine .cons rfl ⟨nofun, ?_, nofun, nofun, nofun⟩ ?_
  · rintro b ⟨⟩ - q item ⟨⟩ -
    exact ⟨rfl, nofun⟩
  refine .cons rfl (hquiet nofun nofun nofun nofun nofun) ?_
  refine .cons rfl ⟨fun _ => rfl, nofun, nofun, nofun, nofun⟩ ?_
  refine .cons rfl (hquiet nofun nofun nofun nofun nofun) ?_
  refine .cons rfl (hquiet nofun nofun nofun nofun nofun) ?_
  refine .cons rfl (hquiet nofun nofun nofun nofun nofun) ?_
  refine .cons rfl (hquiet nofun nofun nofun nofun nofun) ?_
  refine .cons rfl ⟨nofun, nofun, nofun, nofun, ?_⟩ ?_
  · rintro - - w ⟨⟩ v hv
    exact absurd hv (Nat.not_lt_zero v)
  refine .cons rfl ⟨nofun, nofun, ?_, nofun, nofun⟩ ?_
  · rintro b ⟨⟩ - w item rest ⟨⟩ - ⟨⟩
    exact Or.inr rfl
  refine .cons rfl (hquiet nofun nofun nofun nofun nofun) ?_
  refine .cons rfl ⟨nofun, nofun, ?_, nofun, nofun⟩ ?_
  · rintro b ⟨⟩ - w item rest ⟨⟩ - ⟨⟩
    exact Or.inl rfl
  exact .cons rfl (hquiet nofun nofun nofun nofun nofun) trivial

/-- The second ack is behind the sentinel of the `chat_end` when the stop is called. -/
def lateStop : List StopSignal :=
  lateAckRun.map (fun a => .process (.run a)) ++
    [.process .cancel, .process .collect, .gather, .finish]

/-- Nothing is left for the stop to do. -/
theorem exists_lateAck : ∃ s,
    Transition.run (Consumer.step sampleConfig) (.start sampleConfig lateAcks) lateAckRun = some s ∧
      s.cpu = none ∧ s.activeQueues = [] ∧ s.activeWorkers = [] ∧ s.offset = 3 ∧
      ∀ e ∈ s.dispatched, e.2.offset ≠ some 2 :=
  ⟨_, rfl, rfl, by decide +kernel, by decide +kernel, rfl, by decide⟩

/-- **A stop can lose a payload.** It returns, and the second ack has not been dispatched. -/
theorem not_graceful :
    ¬ ∀ (cfg : Config) (records : List Record), 0 < cfg.maxConcurrentConvs → ∀ schedule,
      Transition.Always (Shutdown.step cfg) (Graceful cfg records) (.start cfg records)
        schedule := by
  intro h
  obtain ⟨s, hrun, hcpu, hqueues, hworkers, hoffset, hlost⟩ := exists_lateAck
  have hend : Transition.run (Shutdown.step sampleConfig) (.start sampleConfig lateAcks) lateStop =
      some ⟨⟨s, .putting []⟩, .returned⟩ := by
    rw [lateStop, Transition.run_append, Shutdown.start, Process.start,
      Shutdown.run_of_run .stopping hrun]
    simp [Transition.run, Shutdown.step, Process.step, Shutdown.consumer, hcpu, hqueues, hworkers]
  have hgraceful := (h sampleConfig lateAcks (by decide) lateStop).run hend
  have hread : 2 < s.offset := by rw [hoffset]; exact Nat.lt_succ_self 2
  obtain ⟨e, he, hn⟩ := hgraceful.dispatched rfl 2 hread _ rfl rfl
  exact hlost e he hn

end Consumer

end TitanChat
