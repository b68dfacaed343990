import TitanChat.WorkerShutdown

/-!
# A chat end retires its worker

`_dispatch` puts the sentinel after the handler of a `chat_end` has returned. If the handler raises,
the exception skips the `put`: the worker logs it and goes back to its queue, and unless another
`chat_end` of the conversation follows, it keeps its permit for the life of the process.

The property is about what has happened to a worker, so the state is watched by a record of the
workers that have ended the dispatch of a `chat_end`. The record is read by no step. It is about all
records, not only those whose values are JSON objects; a worker that dies on another value has left
its loop, and given its permit back, as one that exits.

## Main definitions

* `Watched`, `Watched.step`: the consumer with the record
* `Retiring`: the property
* `EndsWell`: the condition on a step, that no `chat_end` handler raises, but behind a sentinel

## Main results

* `retires_step_iff`: a step keeps the property exactly under its condition
* `retiring_iff`: the same for whole runs
-/

namespace TitanChat

namespace Consumer

/-- A sentinel waits in the queue of the worker. -/
def State.HasSentinel (s : State) (w : ℕ) : Prop := ∃ x ∈ (s.workers w).queue, x.value = .null

/-- The worker whose `_dispatch` of a `chat_end` ends with a step, if there is one. -/
def endedBy (cfg : Config) (s : State) : Action → Option ℕ
  | .worker a =>
    match s.cpu with
    | some (.worker w) =>
      match a, (s.workers w).pc with
      | .handlerRaises, .handling item => if item.isChatEnd then some w else none
      | .handlerReturns, .handling item =>
        if item.isChatEnd ∧ s.convQueues (s.workers w).conversation_id = none then some w else none
      | .putSentinel, .putting q => if cfg.full (s.workers q).queue then none else some w
      | _, _ => none
    | _ => none
  | _ => none

/-- The consumer, with the workers that have ended the dispatch of a `chat_end`. -/
structure Watched where
  state : State
  ended : List ℕ

namespace Watched

def start (cfg : Config) (records : List Record) : Watched := ⟨.start cfg records, []⟩

/-- A step of the consumer, and what it adds to the record. -/
def step (cfg : Config) (m : Watched) (a : Action) : Option Watched :=
  (Consumer.step cfg m.state a).map fun s' =>
    { state := s', ended := m.ended ++ (endedBy cfg m.state a).toList }

end Watched

/-- **The property.** -/
structure Retiring (m : Watched) : Prop where
  /-- A worker that has ended a `chat_end` has left its loop, or a sentinel waits in the queue of
  its conversation, which is its own. -/
  ended : ∀ w ∈ m.ended, (m.state.workers w).pc.live = false ∨
    m.state.convQueues (m.state.workers w).conversation_id = some w ∧ m.state.HasSentinel w
  /-- So a permit is held before a `chat_end`, or until a sentinel is read. -/
  permits : ∀ w, (m.state.workers w).pc.holds = true → w ∉ m.ended ∨ m.state.HasSentinel w

/-- **The condition.** A handler of a `chat_end` raises only if a sentinel is already there. -/
def EndsWell (m : Watched) : Action → Prop
  | .worker .handlerRaises => ∀ w item, m.state.cpu = some (.worker w) →
    (m.state.workers w).pc = .handling item → item.isChatEnd = true → m.state.HasSentinel w
  | _ => True

/-- What the property comes to. -/
def Retires (m : Watched) : Prop :=
  ∀ w ∈ m.ended, (m.state.workers w).pc.live = true → m.state.HasSentinel w

/-- What every step keeps, with no condition. -/
structure WatchedInv (m : Watched) : Prop where
  table : TableInv m.state
  born : ∀ w ∈ m.ended, w < m.state.created

theorem WatchedInv.retiring_iff_retires {m : Watched} (h : WatchedInv m) :
    Retiring m ↔ Retires m := by
  constructor
  · intro hr w hended hlive
    rcases hr.ended w hended with hdead | ⟨-, hsentinel⟩
    · exact absurd (hlive.symm.trans hdead) (by decide)
    · exact hsentinel
  · intro hr
    refine ⟨fun w hended => ?_, fun w hholds => ?_⟩
    · cases hlive : (m.state.workers w).pc.live with
      | false => exact Or.inl rfl
      | true => exact Or.inr ⟨h.table.own w hlive, hr w hended hlive⟩
    · by_cases hended : w ∈ m.ended
      · exact Or.inr (hr w hended (WorkerPc.live_of_holds hholds))
      · exact Or.inl hended

/-! ### One step -/

section Step

variable {cfg : Config} {s s' : State} {m m' : Watched}

/-- Whoever is live afterwards was live before and has not lost its sentinel. -/
def Kept (s s' : State) (w : ℕ) : Prop :=
  (s'.workers w).pc.live = true →
    (s.workers w).pc.live = true ∧ (s.HasSentinel w → s'.HasSentinel w)

theorem Kept.of_eq {w : ℕ} (h : s'.workers w = s.workers w) : Kept s s' w := by
  intro hlive
  rw [h] at hlive
  refine ⟨hlive, ?_⟩
  rintro ⟨x, hx, hnull⟩
  exact ⟨x, by rwa [h], hnull⟩

/-- One worker changes; it was live, and has no sentinel less. -/
theorem Kept.modify {w : ℕ} {f : Worker → Worker} (hlive : (s.workers w).pc.live = true)
    (hqueue : ∀ x ∈ (s.workers w).queue, x.value = .null → x ∈ (f (s.workers w)).queue) (v : ℕ) :
    Kept s (s.modify w f) v := by
  by_cases hv : v = w
  · subst hv
    refine fun _ => ⟨hlive, ?_⟩
    rintro ⟨x, hx, hnull⟩
    refine ⟨x, ?_, hnull⟩
    rw [State.modify_workers, if_pos rfl]
    exact hqueue x hx hnull
  · exact .of_eq (by rw [State.modify_workers, if_neg hv])

theorem Kept.enqueue (q : ℕ) (item : Item) (v : ℕ) : Kept s (s.enqueue q item) v := by
  by_cases hv : v = q
  · subst hv
    rw [Kept, State.enqueue, State.modify_workers, if_pos rfl]
    refine fun hlive => ⟨hlive, ?_⟩
    rintro ⟨x, hx, hnull⟩
    refine ⟨x, ?_, hnull⟩
    rw [State.modify_workers, if_pos rfl]
    exact List.mem_append_left _ hx
  · exact .of_eq (by rw [State.enqueue, State.modify_workers, if_neg hv])

/-- A worker that leaves is not live. -/
theorem Kept.leave {w : ℕ} {rest : List Item} {pc : WorkerPc} (hpc : pc.live = false) (v : ℕ)
    (hworkers : s'.workers = (s.modify w ({ · with queue := rest, pc := pc })).workers) :
    Kept s s' v := by
  by_cases hv : v = w
  · subst hv
    intro hlive
    rw [hworkers, State.modify_workers, if_pos rfl] at hlive
    exact absurd (hlive.symm.trans hpc) (by decide)
  · exact .of_eq (by rw [hworkers, State.modify_workers, if_neg hv])

/-- An item that is not a sentinel is taken from the head of a queue. -/
theorem mem_rest_of_null {item x : Item} {rest queue : List Item} {payload : Dict Json}
    (hqueue : queue = item :: rest) (hdict : item.value.dict? = some payload) (hx : x ∈ queue)
    (hnull : x.value = .null) : x ∈ rest := by
  rw [hqueue] at hx
  refine (List.mem_cons.mp hx).resolve_left ?_
  rintro rfl
  rw [hnull] at hdict
  exact absurd hdict (by simp [Json.dict?])

/-- **The record aside**, a step keeps every sentinel of a worker that it leaves in its loop; only
a worker that is created was not there before. -/
theorem kept_of_step (h : TableInv s) {a : Action} (hs : Consumer.step cfg s a = some s') {w : ℕ}
    (hw : w < s.created) : Kept s s' w := by
  cases stepped_of_step hs with
  | resumed | skipped | delivered | awaitsRecord | putWaits | getWaits | suspended
  | sentinelWaits => exact .of_eq rfl
  | created => exact .of_eq (Function.update_of_ne (Nat.ne_of_lt hw) _ _)
  | put => exact Kept.enqueue _ _ w
  | acquired cpu =>
    exact Kept.modify (f := ({ · with pc := .getting })) (h.cpu _ cpu) (fun _ hx _ => hx) w
  | acquireWaits cpu =>
    exact Kept.modify (f := ({ · with pc := .acquiring })) (h.cpu _ cpu) (fun _ hx _ => hx) w
  | exited cpu =>
    have hpc : WorkerPc.exited.live = false := rfl
    exact Kept.leave hpc w (State.workers_exit ..)
  | died cpu =>
    have hpc : WorkerPc.died.live = false := rfl
    exact Kept.leave hpc w (State.workers_die ..)
  | @handed v item rest payload e cpu pc queue dict =>
    exact Kept.modify (f := ({ · with queue := rest, pc := .handling item })) (h.cpu _ cpu)
      (fun x hx hnull => mem_rest_of_null queue dict hx hnull) w
  | @dropped v item rest payload cpu pc queue dict =>
    exact Kept.modify (f := ({ · with queue := rest, pc := .getting })) (h.cpu _ cpu)
      (fun x hx hnull => mem_rest_of_null queue dict hx hnull) w
  | ended cpu | chatEnded cpu => exact Kept.modify (h.cpu _ cpu) (fun _ hx _ => hx) w
  | @sentinelPut v q cpu pc =>
    obtain rfl := h.workerQueue v q pc
    rw [State.setPc_enqueue]
    exact Kept.modify (h.cpu _ cpu) (fun _ hx _ => List.mem_append_left _ hx) w

/-- What the record gains. -/
theorem ended_of_step {a : Action} (hs : m.step cfg a = some m') :
    Consumer.step cfg m.state a = some m'.state ∧
      ∀ w, w ∈ m'.ended ↔ w ∈ m.ended ∨ endedBy cfg m.state a = some w := by
  obtain ⟨s', hs', rfl⟩ := Option.map_eq_some_iff.mp hs
  exact ⟨hs', fun w => by rw [List.mem_append, Option.mem_toList]⟩

/-- **How the dispatch of a `chat_end` ends**: its handler raises, or a sentinel is put on the
queue of the worker. -/
theorem endedBy_cases (h : TableInv s) {a : Action} (hs : Consumer.step cfg s a = some s') {w : ℕ}
    (hby : endedBy cfg s a = some w) : (s.workers w).pc.live = true ∧
      ((a = .worker .handlerRaises ∧ s.cpu = some (.worker w) ∧
          (∃ item, (s.workers w).pc = .handling item ∧ item.isChatEnd = true) ∧
          s' = s.setPc w .getting) ∨
        (a ≠ .worker .handlerRaises ∧ s'.HasSentinel w)) := by
  cases stepped_of_step hs with
  | resumed | skipped | delivered | created | awaitsRecord | putWaits | put =>
    exact absurd hby (by simp [endedBy])
  | acquired cpu | acquireWaits cpu | getWaits cpu | exited cpu | died cpu | handed cpu
  | dropped cpu | suspended cpu => exact absurd hby (by simp [endedBy, cpu])
  | @chatEnded v q item cpu pc chatEnd queue =>
    exact absurd hby (by simp [endedBy, cpu, pc, queue])
  | sentinelWaits cpu pc full => exact absurd hby (by simp [endedBy, cpu, pc, full])
  | @ended v item b cpu pc how =>
    have hown := h.own v (h.cpu v cpu)
    rcases how with rfl | ⟨rfl, how⟩
    · simp only [endedBy, cpu, pc, Option.ite_none_right_eq_some, Option.some.injEq] at hby
      obtain ⟨hend, rfl⟩ := hby
      exact ⟨h.cpu v cpu, Or.inl ⟨rfl, cpu, ⟨item, pc, hend⟩, rfl⟩⟩
    · exact absurd hby (by simp [endedBy, cpu, pc, hown])
  | @sentinelPut v q cpu pc room =>
    simp only [endedBy, cpu, pc, Option.ite_none_left_eq_some, Option.some.injEq] at hby
    obtain ⟨-, rfl⟩ := hby
    obtain rfl := h.workerQueue v q pc
    refine ⟨h.cpu q cpu, Or.inr ⟨by simp, .sentinel, ?_, rfl⟩⟩
    rw [State.setPc_enqueue, State.modify_workers, if_pos rfl]
    exact List.mem_append_right _ (List.mem_singleton_self _)

theorem WatchedInv.step (h : WatchedInv m) {a : Action} (hs : m.step cfg a = some m') :
    WatchedInv m' := by
  obtain ⟨hstep, hended⟩ := ended_of_step hs
  refine ⟨h.table.step hstep, fun w hw => ?_⟩
  refine Nat.lt_of_lt_of_le ?_ (created_le_of_step hstep)
  rcases (hended w).mp hw with hw | hby
  · exact h.born w hw
  · exact h.table.lt_created (endedBy_cases h.table hstep hby).1

/-- **A step keeps the property exactly under its condition.** -/
theorem retires_step_iff (h : WatchedInv m) (hr : Retires m) {a : Action}
    (hs : m.step cfg a = some m') : Retires m' ↔ EndsWell m a := by
  obtain ⟨hstep, hended⟩ := ended_of_step hs
  have hold : ∀ w ∈ m.ended, (m'.state.workers w).pc.live = true → m'.state.HasSentinel w := by
    intro w hw hlive
    obtain ⟨hlive', hkept⟩ := kept_of_step h.table hstep (h.born w hw) hlive
    exact hkept (hr w hw hlive')
  have hraise : ∀ {w : ℕ}, m'.state = m.state.setPc w .getting →
      ((m'.state.workers w).pc.live = true ∧
        (m'.state.HasSentinel w ↔ m.state.HasSentinel w)) := by
    intro w hm'
    rw [hm', State.HasSentinel, State.setPc, State.modify_workers, if_pos rfl]
    exact ⟨rfl, Iff.rfl⟩
  constructor
  · intro hr'
    rw [EndsWell.eq_def]
    split
    · intro w item hcpu hpc hend
      have hby : endedBy cfg m.state (.worker .handlerRaises) = some w := by
        simp [endedBy, hcpu, hpc, hend]
      obtain ⟨-, ⟨-, -, -, hm'⟩ | ⟨hne, -⟩⟩ := endedBy_cases h.table hstep hby
      · obtain ⟨hlive, hsame⟩ := hraise hm'
        exact hsame.mp (hr' w ((hended w).mpr (Or.inr hby)) hlive)
      · exact absurd rfl hne
    · trivial
  · intro hwell w hw hlive
    rcases (hended w).mp hw with hw | hby
    · exact hold w hw hlive
    · obtain ⟨-, ⟨rfl, hcpu, ⟨item, hpc, hend⟩, hm'⟩ | ⟨-, hsentinel⟩⟩ :=
        endedBy_cases h.table hstep hby
      · exact (hraise hm').2.mpr (hwell w item hcpu hpc hend)
      · exact hsentinel

end Step

/-! ### Whole runs -/

/-- **A chat end retires its worker throughout a run** if and only if no `chat_end` handler of the
run raises, but behind a sentinel. -/
theorem retiring_iff (cfg : Config) (records : List Record) (schedule : List Action) :
    Transition.Always (Watched.step cfg) Retiring (.start cfg records) schedule ↔
      Transition.Guarded (Watched.step cfg) EndsWell (.start cfg records) schedule := by
  have hinv : WatchedInv (.start cfg records) :=
    ⟨.start cfg records, fun w hw => absurd hw List.not_mem_nil⟩
  have hretires : Retires (.start cfg records) := fun w hw => absurd hw List.not_mem_nil
  refine Transition.always_iff_guarded (fun _ _ _ h hs => h.step hs) (fun m a m' h hi hs => ?_)
    hinv (hinv.retiring_iff_retires.mpr hretires)
  rw [(h.step hs).retiring_iff_retires]
  exact retires_step_iff h (h.retiring_iff_retires.mp hi) hs

/-- The handler of the only `chat_end` raises. -/
def raisingRun : List Action :=
  [.resume .loop, .loop .read, .loop .put, .loop .awaitRecord,
    .resume (.worker 0), .worker .acquire, .worker .get, .worker .handlerRaises]

/-- **A `chat_end` without its fields.** The worker is back at its queue, which is empty. -/
theorem not_retiring : ¬ ∀ (cfg : Config) (records : List Record) (schedule : List Action),
    (∀ msg ∈ records, ∀ c payload, cfg.delivery msg = some (c, payload) →
      ∃ kvs, payload = .obj kvs) →
    Transition.Always (Watched.step cfg) Retiring (.start cfg records) schedule := by
  intro h
  have hobjects : ∀ msg ∈ [sampleRecord bareText], ∀ c payload,
      sampleConfig.delivery msg = some (c, payload) → ∃ kvs, payload = .obj kvs := by
    intro msg hmsg c payload hd
    obtain rfl := List.mem_singleton.mp hmsg
    obtain ⟨-, rfl⟩ := Prod.mk.inj (Option.some.inj hd)
    exact ⟨_, rfl⟩
  have hrun : (Transition.run (Watched.step sampleConfig)
      (.start sampleConfig [sampleRecord bareText]) raisingRun).map (fun m =>
        (m.ended, (m.state.workers 0).pc.live, (m.state.workers 0).queue.isEmpty)) =
      some ([0], true, true) := by decide +kernel
  obtain ⟨m, hm, hend⟩ := Option.map_eq_some_iff.mp hrun
  simp only [Prod.mk.injEq, List.isEmpty_iff] at hend
  obtain ⟨hended, hlive, hqueue⟩ := hend
  have hlast := (h sampleConfig _ raisingRun hobjects).run hm
  rcases hlast.ended 0 (by rw [hended]; exact List.mem_singleton_self 0) with hdead | ⟨-, x, hx, -⟩
  · exact absurd (hlive.symm.trans hdead) (by decide)
  · rw [hqueue] at hx
    exact absurd hx List.not_mem_nil

end Consumer

end TitanChat
