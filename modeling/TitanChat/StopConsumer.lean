import Mathlib.Algebra.GroupWithZero.Nat
import TitanChat.ConsumerProgress
import TitanChat.MalformedRecords

/-!
# Stopping the consumer

`stop_consumer` cancels the loop, puts a sentinel on every queue in turn, waits for the workers and
stops the Kafka consumer, which commits the offsets of all records that the loop has taken.

A run of the stop is finite if the handlers end: each step lowers `Shutdown.rank`, but for the
suspension of a handler. So the stop returns in every interleaving, if it is never stuck before.

## Main definitions

* `Shutdown`, `Shutdown.step`: the consumer with all of `stop_consumer`
* `Shutdown.Stopping`: the stop has been called
* `Shutdown.rank`: the steps that are left

## Main results

* `stepped_of_step`: what a step can do
* `length_le_of_run`: runs of the stop are bounded
-/

namespace TitanChat

namespace Consumer

/-- Where `stop_consumer` is after the sentinels. -/
inductive Phase where
  /-- Not there yet. -/
  | stopping
  /-- At `await asyncio.gather(..)` of these workers. -/
  | gathering (ws : List ℕ)
  /-- The Kafka consumer is stopped. -/
  | returned

structure Shutdown where
  process : Process
  phase : Phase

inductive StopSignal where
  | process (a : Signal)
  /-- The last sentinel is on its queue. -/
  | gather
  /-- The workers have ended. -/
  | finish

/-- The tasks in `_conv_workers`. -/
def State.activeWorkers (s : State) : List ℕ :=
  (List.range s.created).filter fun w => s.convWorkers (s.workers w).conversation_id = some w

namespace Shutdown

def start (cfg : Config) (records : List Record) : Shutdown :=
  { process := .start cfg records, phase := .stopping }

/-- The state of the consumer. -/
def consumer (p : Shutdown) : State := p.process.consumer

def step (cfg : Config) (p : Shutdown) : StopSignal → Option Shutdown
  | .process a => (p.process.step cfg a).map ({ p with process := · })
  | .gather =>
    match p.phase, p.process.stop with
    | .stopping, .putting [] =>
      if p.consumer.cpu = none then some { p with phase := .gathering p.consumer.activeWorkers }
      else none
    | _, _ => none
  | .finish =>
    match p.phase with
    | .gathering ws =>
      if p.consumer.cpu = none ∧ ∀ w ∈ ws, (p.consumer.workers w).pc.live = false then
        some { p with phase := .returned }
      else none
    | _ => none

/-- `stop_consumer` has been called. -/
def Called (p : Shutdown) : Prop := p.process.stop ≠ .running

/-- What a step can do. -/
inductive Stepped (cfg : Config) (p : Shutdown) : StopSignal → Shutdown → Prop
  | process {a : Signal} {process' : Process} (h : p.process.step cfg a = some process') :
      Stepped cfg p (.process a) { p with process := process' }
  | gathered (phase : p.phase = .stopping) (stop : p.process.stop = .putting [])
      (cpu : p.consumer.cpu = none) :
      Stepped cfg p .gather { p with phase := .gathering p.consumer.activeWorkers }
  | finished {ws : List ℕ} (phase : p.phase = .gathering ws)
      (ended : ∀ w ∈ ws, (p.consumer.workers w).pc.live = false) :
      Stepped cfg p .finish { p with phase := .returned }

variable {cfg : Config} {p p' : Shutdown}

/-- **Inversion of a step.** -/
theorem stepped_of_step {a : StopSignal} (h : step cfg p a = some p') : Stepped cfg p a p' := by
  cases a with
  | process a =>
    obtain ⟨process', hprocess, rfl⟩ := Option.map_eq_some_iff.mp h
    exact .process hprocess
  | gather =>
    rw [step] at h
    split at h
    · next hphase hstop =>
      obtain ⟨hcpu, h⟩ := Option.ite_none_right_eq_some.mp h
      obtain rfl := Option.some.inj h
      exact .gathered hphase hstop hcpu
    · exact absurd h nofun
  | finish =>
    rw [step] at h
    split at h
    · next ws hphase =>
      obtain ⟨⟨-, hended⟩, h⟩ := Option.ite_none_right_eq_some.mp h
      obtain rfl := Option.some.inj h
      exact .finished hphase hended
    · exact absurd h nofun

/-- Before the stop is called the consumer runs as it does alone. -/
theorem run_of_run {s s' : State} (phase : Phase) {as : List Action}
    (hr : Transition.run (Consumer.step cfg) s as = some s') :
    Transition.run (step cfg) ⟨⟨s, .running⟩, phase⟩ (as.map fun a => .process (.run a)) =
      some ⟨⟨s', .running⟩, phase⟩ := by
  induction as generalizing s with
  | nil =>
    rw [Transition.run_nil, Option.some.injEq] at hr
    rw [hr]
    rfl
  | cons a as ih =>
    obtain ⟨t, ht, hr⟩ := Option.bind_eq_some_iff.mp hr
    have hone : step cfg ⟨⟨s, .running⟩, phase⟩ (.process (.run a)) =
        some ⟨⟨t, .running⟩, phase⟩ := by
      simp [step, Process.step, ht]
    rw [List.map_cons, Transition.run, hone]
    exact ih hr

end Shutdown

/-! ### How long a run can be -/

/-- What an item is worth. After a `chat_end` there is one more sentinel. -/
def Item.rank (item : Item) : ℕ :=
  match item.value with
  | .null => 1
  | _ => 4

def WorkerPc.rank : WorkerPc → ℕ
  | .created => 2
  | .acquiring => 1
  | .getting => 0
  | .handling _ => 3
  | .putting _ => 2
  | .exited | .died => 0

def Worker.rank (wk : Worker) : ℕ := (wk.queue.map Item.rank).sum + wk.pc.rank

/-- The turn that is being taken: a task that is not ready is about to wait. -/
def State.turn (cfg : Config) (s : State) : ℕ :=
  match s.cpu with
  | none => 1
  | some t => if s.ready cfg t then 0 else 2

/-- The steps that are left in the workers. -/
def State.rank (cfg : Config) (s : State) : ℕ :=
  3 * (∑ w ∈ Finset.range s.created, (s.workers w).rank) + s.turn cfg

/-- The action is the suspension of a handler. -/
def Action.suspends : Action → Bool
  | .worker .handlerSuspends => true
  | _ => false

section Rank

variable {cfg : Config} {s s' : State}

theorem Item.rank_of_ne_null {item : Item} (h : item.value ≠ .null) : item.rank = 4 := by
  rw [Item.rank]
  split
  · next hnull => exact absurd hnull h
  · rfl

theorem Item.rank_pos (item : Item) : 0 < item.rank := by
  rw [Item.rank]
  split
  · exact Nat.one_pos
  · exact Nat.succ_pos 3

theorem turn_le (cfg : Config) (s : State) : s.turn cfg ≤ 2 := by
  rw [State.turn]
  split
  · exact Nat.le_succ 1
  · split
    · exact Nat.zero_le 2
    · exact Nat.le_refl 2

theorem turn_idle (h : s.cpu = none) : s.turn cfg = 1 := by rw [State.turn, h]

theorem turn_ready {t : Task} (hcpu : s.cpu = some t) (h : s.ready cfg t) :
    s.turn cfg = 0 := by
  rw [State.turn, hcpu]
  exact if_pos h

theorem turn_not_ready {t : Task} (hcpu : s.cpu = some t) (h : s.ready cfg t = false) :
    s.turn cfg = 2 := by
  rw [State.turn, hcpu]
  exact if_neg (Bool.eq_false_iff.mp h)

/-- A worker moves on, and is worth less. -/
theorem rank_modify {w : ℕ} {f : Worker → Worker} (hw : w < s.created)
    (hsame : s'.workers = (s.modify w f).workers) (hcreated : s'.created = s.created)
    (hlt : (f (s.workers w)).rank < (s.workers w).rank) : s'.rank cfg + 1 ≤ s.rank cfg := by
  have hsum := State.sum_modify Worker.rank hw f
  have hturn := turn_le cfg s'
  rw [State.rank, State.rank, hsame, hcreated]
  omega

/-- The running task waits. -/
theorem rank_wait {t : Task} (hcpu : s.cpu = some t) (hready : s.ready cfg t = false) :
    State.rank cfg { s with cpu := none } + 1 ≤ s.rank cfg := by
  rw [State.rank, State.rank, turn_not_ready hcpu hready, turn_idle rfl]

/-- A worker takes an item, and goes where it is worth less than the item. -/
theorem Worker.rank_take_lt {wk : Worker} {item : Item} {rest : List Item}
    (hqueue : wk.queue = item :: rest) (hpc : wk.pc = .getting) {pc : WorkerPc}
    (hlt : pc.rank < item.rank) : Worker.rank { wk with queue := rest, pc := pc } < wk.rank := by
  have hold : wk.rank = item.rank + (rest.map Item.rank).sum := by
    rw [Worker.rank, hqueue, hpc, List.map_cons, List.sum_cons]
    rfl
  have hnew : Worker.rank { wk with queue := rest, pc := pc } =
      (rest.map Item.rank).sum + pc.rank := rfl
  omega

/-- **A step of a worker** lowers the rank, unless a handler suspends. -/
theorem rank_of_step (ht : TableInv s) {a : Action} (hloop : a.movesLoop = false)
    (hs : Consumer.step cfg s a = some s') :
    s'.rank cfg + 1 ≤ s.rank cfg + if a.suspends then 2 else 0 := by
  have hlive {w : ℕ} (hcpu : s.cpu = some (.worker w)) : w < s.created :=
    ht.lt_created (ht.cpu w hcpu)
  cases stepped_of_step hs with
  | skipped | delivered | created | awaitsRecord | putWaits | put =>
    exact absurd hloop Bool.noConfusion
  | @resumed t idle ready =>
    have hready : State.ready cfg { s with cpu := some t } t = true := ready
    rw [State.rank, State.rank, turn_idle idle, turn_ready rfl hready]
    exact Nat.le_add_right _ _
  | @acquired w cpu pc free =>
    refine rank_modify (f := ({ · with pc := .getting })) (hlive cpu) rfl rfl ?_
    obtain pc | pc := pc
    · simp [Worker.rank, pc, WorkerPc.rank]
    · simp [Worker.rank, pc, WorkerPc.rank]
  | @acquireWaits w cpu pc exhausted =>
    obtain pc | pc := pc
    · refine rank_modify (f := ({ · with pc := .acquiring })) (hlive cpu) rfl rfl ?_
      simp [Worker.rank, pc, WorkerPc.rank]
    · have hsame : s.setPc w .acquiring = s := by simp [State.setPc, State.modify, ← pc]
      rw [hsame]
      exact rank_wait cpu (by simp [State.ready, pc, exhausted])
  | @getWaits w cpu pc empty => exact rank_wait cpu (by simp [State.ready, pc, empty])
  | @exited w item rest cpu pc queue null =>
    refine rank_modify (f := ({ · with queue := rest, pc := .exited })) (hlive cpu) ?_ rfl
      (Worker.rank_take_lt queue pc item.rank_pos)
    exact s.workers_exit w rest
  | @died w item rest cpu pc queue notNull notDict =>
    refine rank_modify (f := ({ · with queue := rest, pc := .died })) (hlive cpu) ?_ rfl
      (Worker.rank_take_lt queue pc item.rank_pos)
    exact s.workers_die w rest
  | @handed w item rest _ _ cpu pc queue dict =>
    have hrank : item.rank = 4 := Item.rank_of_ne_null fun hnull => by
      rw [hnull] at dict
      exact absurd dict.symm (Option.some_ne_none _)
    refine rank_modify (f := ({ · with queue := rest, pc := .handling item })) (hlive cpu) rfl rfl
      (Worker.rank_take_lt queue pc ?_)
    rw [hrank]
    exact Nat.lt_succ_self 3
  | @dropped w item rest _ cpu pc queue dict =>
    exact rank_modify (f := ({ · with queue := rest, pc := .getting })) (hlive cpu) rfl rfl
      (Worker.rank_take_lt queue pc item.rank_pos)
  | @suspended w item cpu pc =>
    have hready : s.ready cfg (.worker w) := by simp [State.ready, pc]
    rw [State.rank, State.rank, turn_ready cpu hready, turn_idle rfl]
    exact Nat.le_refl _
  | @ended w item b cpu pc how =>
    have hlt : (s.setPc w .getting).rank cfg + 1 ≤ s.rank cfg :=
      rank_modify (f := ({ · with pc := .getting })) (hlive cpu) rfl rfl
        (by simp [Worker.rank, pc, WorkerPc.rank])
    exact hlt.trans (Nat.le_add_right _ _)
  | @chatEnded w q item cpu pc =>
    exact rank_modify (f := ({ · with pc := .putting q })) (hlive cpu) rfl rfl
      (by simp [Worker.rank, pc, WorkerPc.rank])
  | @sentinelWaits w q cpu pc full => exact rank_wait cpu (by simp [State.ready, pc, full])
  | @sentinelPut w q cpu pc room =>
    obtain rfl := ht.workerQueue w q pc
    refine rank_modify (f := fun wk => { wk with queue := wk.queue ++ [.sentinel], pc := .getting })
      (hlive cpu) ?_ rfl ?_
    · rw [State.setPc_enqueue]
    · simp [Worker.rank, pc, WorkerPc.rank, Item.rank, Item.sentinel]

/-- A worker does not give the processor to the loop. -/
theorem cpu_of_step {a : Action} (hloop : a.movesLoop = false)
    (hs : Consumer.step cfg s a = some s') (h : s.cpu ≠ some .loop) : s'.cpu ≠ some .loop := by
  cases stepped_of_step hs with
  | skipped | delivered | created | awaitsRecord | putWaits | put => exact absurd hloop nofun
  | @resumed t =>
    cases t with
    | loop => exact absurd hloop nofun
    | worker w => exact fun heq => nomatch Option.some.inj heq
  | acquireWaits | getWaits | exited | died | suspended | sentinelWaits => exact nofun
  | acquired | handed | dropped | ended | chatEnded | sentinelPut => exact h

/-- A worker creates no other. -/
theorem created_of_step {a : Action} (hloop : a.movesLoop = false)
    (hs : Consumer.step cfg s a = some s') : s'.created = s.created := by
  cases stepped_of_step hs with
  | skipped | delivered | created | awaitsRecord | putWaits | put => exact absurd hloop nofun
  | resumed | acquired | acquireWaits | getWaits | exited | died | handed | dropped | suspended
  | ended | chatEnded | sentinelWaits | sentinelPut => rfl

/-- A sentinel is put on a queue. -/
theorem rank_enqueue (cfg : Config) {q : ℕ} (hq : q < s.created) (hcpu : s.cpu = none) :
    (s.enqueue q .sentinel).rank cfg = s.rank cfg + 3 := by
  have hsum := State.sum_modify Worker.rank hq fun wk =>
    { wk with queue := wk.queue ++ [Item.sentinel] }
  have hone : Worker.rank { s.workers q with queue := (s.workers q).queue ++ [Item.sentinel] } =
      (s.workers q).rank + 1 := by
    simp only [Worker.rank, List.map_append, List.sum_append, List.map_cons, List.map_nil,
      List.sum_singleton, Item.rank, Item.sentinel]
    omega
  have hcpu' : (s.enqueue q .sentinel).cpu = none := hcpu
  rw [State.rank, State.rank, turn_idle hcpu, turn_idle hcpu']
  rw [hone] at hsum
  rw [State.enqueue, State.modify_created]
  omega

end Rank

/-- The sentinels that `stop_consumer` has yet to put. -/
def Process.rank (p : Process) : ℕ :=
  match p.stop with
  | .running => 0
  | .cancelling => 4 * p.consumer.created + 3
  | .putting qs => 4 * qs.length + 2

def Phase.rank : Phase → ℕ
  | .stopping => 2
  | .gathering _ => 1
  | .returned => 0

/-- The signal is the suspension of a handler. -/
def StopSignal.suspends : StopSignal → Bool
  | .process (.run a) => a.suspends
  | _ => false

namespace Shutdown

/-- The steps that are left. -/
def rank (cfg : Config) (p : Shutdown) : ℕ :=
  p.consumer.rank cfg + p.process.rank + p.phase.rank

/-- The stop has been called, and the loop does not run any more. -/
structure Stopping (p : Shutdown) : Prop where
  inv : ProcessInv p.process
  called : p.Called
  cpu : p.consumer.cpu ≠ some .loop

section Bound

variable {cfg : Config} {p p' : Shutdown}

/-- A step of a task. After the call only the workers run. -/
theorem exists_of_run {a : Action} {process' : Process}
    (hs : p.process.step cfg (.run a) = some process') : ∃ s,
      Consumer.step cfg p.consumer a = some s ∧ process' = { p.process with consumer := s } ∧
      (p.Called → a.movesLoop = false) := by
  rw [Process.step] at hs
  split at hs
  · next hstop =>
    obtain ⟨s, hstep, rfl⟩ := Option.map_eq_some_iff.mp hs
    exact ⟨s, hstep, rfl, fun hcalled => absurd hstop hcalled⟩
  · obtain ⟨hloop, hs⟩ := Option.ite_none_left_eq_some.mp hs
    obtain ⟨s, hstep, rfl⟩ := Option.map_eq_some_iff.mp hs
    exact ⟨s, hstep, rfl, fun _ => Bool.eq_false_iff.mpr hloop⟩

theorem length_activeQueues_le (s : State) : s.activeQueues.length ≤ s.created :=
  (List.length_filter_le _ _).trans_eq List.length_range

/-- **A step of the stop** lowers the rank, unless a handler suspends. -/
theorem Stopping.step (h : p.Stopping) {a : StopSignal} (hs : step cfg p a = some p') :
    p'.Stopping ∧ p'.rank cfg + 1 ≤ p.rank cfg + if a.suspends then 2 else 0 := by
  cases stepped_of_step hs with
  | @process a process' hprocess =>
    have hinv := h.inv.step hprocess
    cases a with
    | run a =>
      obtain ⟨s, hstep, rfl, hloop⟩ := exists_of_run hprocess
      have hloop := hloop h.called
      have hrank := rank_of_step h.inv.table hloop hstep
      have hstop : Process.rank { p.process with consumer := s } = p.process.rank := by
        rw [Process.rank, Process.rank]
        dsimp only
        rw [created_of_step hloop hstep]
        rfl
      refine ⟨⟨hinv, h.called, cpu_of_step hloop hstep h.cpu⟩, ?_⟩
      have hsuspends : (StopSignal.process (.run a)).suspends = a.suspends := rfl
      simp only [rank, consumer, hstop, hsuspends]
      omega
    | cancel => exact absurd (Process.of_cancel hprocess).1 h.called
    | collect =>
      obtain ⟨hstop, -, rfl⟩ := Process.of_collect hprocess
      refine ⟨⟨hinv, StopPc.noConfusion, h.cpu⟩, ?_⟩
      have hlength := length_activeQueues_le p.process.consumer
      simp only [rank, consumer, Process.rank, hstop]
      omega
    | putSentinel =>
      obtain ⟨q, qs, hstop, hcpu, -, rfl⟩ := Process.of_putSentinel hprocess
      refine ⟨⟨hinv, StopPc.noConfusion, h.cpu⟩, ?_⟩
      have hq : q < p.process.consumer.created := h.inv.stop _ hstop q List.mem_cons_self
      have hrank := rank_enqueue cfg hq hcpu
      simp only [rank, consumer, Process.rank, hstop, hrank, List.length_cons]
      omega
  | gathered hphase hstop hcpu =>
    refine ⟨⟨h.inv, h.called, h.cpu⟩, ?_⟩
    simp only [rank, consumer, hphase, Phase.rank]
    exact Nat.le_refl _
  | finished hphase hended =>
    refine ⟨⟨h.inv, h.called, h.cpu⟩, ?_⟩
    simp only [rank, consumer, hphase, Phase.rank]
    exact Nat.le_refl _

/-- **Runs of the stop are bounded**, if the handlers suspend only so often. -/
theorem length_le_of_run (h : p.Stopping) {as : List StopSignal}
    (hr : Transition.run (step cfg) p as = some p') :
    as.length ≤ p.rank cfg + 2 * as.countP StopSignal.suspends :=
  (Nat.le_add_right _ _).trans (Transition.length_add_rank_le (K := Stopping)
    (p := StopSignal.suspends) (fun _ _ _ h hs => (h.step hs).1)
    (fun _ _ _ h hs => (h.step hs).2) h hr)

end Bound

end Shutdown

end Consumer

end TitanChat
