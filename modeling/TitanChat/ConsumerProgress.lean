import Mathlib.Algebra.BigOperators.Group.Finset.Basic
import Mathlib.Algebra.Order.BigOperators.Group.Finset
import TitanChat.WorkerTable

/-!
# The consumer runs out of work

A task that runs can always take a step, and a task that is ready can be given the processor. Each
turn lowers `work`, as long as no handler returns: a handler that raises leaves nothing behind,
while one that returns may have a sentinel to put. So every run can be continued, without a handler
that returns, to a state in which nobody is ready. It can even be continued so that the handlers of
some chosen items never end.

## Main definitions

* `State.work`: the steps that are left, weighted
* `calm`: no handler returns, and no handler of a held item ends
* `Settled`: only workers that handle held items are ready

## Main results

* `exists_step_of_running`: a running task can take a step
* `exists_settled`: a calm run can be steered to a settled state
-/

namespace TitanChat

namespace Consumer

/-- What the position of a worker is worth. -/
def WorkerPc.work : WorkerPc → ℕ
  | .created => 2
  | .acquiring => 1
  | .getting => 0
  | .handling _ => 1
  | .putting _ => 4
  | .exited | .died => 0

/-- The work left in a worker: three for each queued item, and what its own position is worth. -/
def Worker.work (wk : Worker) : ℕ := 3 * wk.queue.length + wk.pc.work

theorem Worker.work_mk (c : String) (queue : List Item) (pc : WorkerPc) (ctx : Trace) :
    Worker.work ⟨c, queue, pc, ctx⟩ = 3 * queue.length + pc.work := rfl

/-- The work left in the loop. -/
def LoopPc.work : LoopPc → ℕ
  | .fetching => 0
  | .putting _ _ => 6

namespace State

/-- The work left: for the records that are unread, for an item on its way, and in the workers. -/
def todo (s : State) : ℕ :=
  12 * s.input.length + s.loop.work + ∑ w ∈ Finset.range s.created, (s.workers w).work

/-- The work left and the turn that is being taken. -/
def work (s : State) : ℕ := 2 * s.todo + if s.cpu = none then 0 else 1

variable {s : State}

/-- One worker changes. -/
theorem sum_modify (g : Worker → ℕ) {w : ℕ} (hw : w < s.created) (f : Worker → Worker) :
    (∑ v ∈ Finset.range s.created, g ((s.modify w f).workers v)) + g (s.workers w) =
      (∑ v ∈ Finset.range s.created, g (s.workers v)) + g (f (s.workers w)) := by
  have hmem : w ∈ Finset.range s.created := Finset.mem_range.mpr hw
  have hrest : ∑ v ∈ (Finset.range s.created).erase w, g ((s.modify w f).workers v) =
      ∑ v ∈ (Finset.range s.created).erase w, g (s.workers v) :=
    Finset.sum_congr rfl fun v hv => by rw [modify_workers, if_neg (Finset.ne_of_mem_erase hv)]
  rw [← Finset.add_sum_erase _ _ hmem, ← Finset.add_sum_erase _ (fun v => g (s.workers v)) hmem,
    hrest, modify_workers, if_pos rfl]
  omega

end State

/-- A handler does not return, and the handler of a held item does not end. -/
def calm (hold : Item → Bool) (s : State) : Action → Bool
  | .worker .handlerReturns => false
  | .worker .handlerRaises =>
    match s.cpu with
    | some (.worker w) =>
      match (s.workers w).pc with
      | .handling item => !hold item
      | _ => true
    | _ => true
  | _ => true

/-- The calm steps. -/
def calmStep (cfg : Config) (hold : Item → Bool) (s : State) (a : Action) : Option State :=
  if calm hold s a then step cfg s a else none

/-- The task handles a held item. -/
def State.Held (hold : Item → Bool) (s : State) (t : Task) : Prop :=
  ∃ w item, t = .worker w ∧ (s.workers w).pc = .handling item ∧ hold item

/-- The only ready tasks are workers that handle a held item. -/
structure Settled (cfg : Config) (hold : Item → Bool) (s : State) : Prop where
  idle : s.cpu = none
  held : ∀ t, s.ready cfg t → s.Held hold t

variable {cfg : Config} {hold : Item → Bool} {s s' : State}

theorem work_lt_of_todo_lt (h : s'.todo < s.todo) : s'.work < s.work := by
  rw [State.work, State.work]
  split <;> split <;> omega

/-- A worker moves on, and its own work goes down. -/
theorem todo_lt_of_modify {w : ℕ} {f : Worker → Worker} (hw : w < s.created)
    (hlt : (f (s.workers w)).work < (s.workers w).work)
    (hsame : s'.workers = (s.modify w f).workers) (hinput : s'.input = s.input)
    (hloop : s'.loop = s.loop) (hcreated : s'.created = s.created) : s'.todo < s.todo := by
  have hsum := State.sum_modify Worker.work hw f
  rw [State.todo, State.todo, hinput, hloop, hcreated, hsame]
  omega

/-- The loop reads a record. -/
theorem todo_read_lt {msg : Record} {rest : List Record} (hl : s.loop = .fetching)
    (hinput : s.input = msg :: rest) : (s.read cfg msg rest).todo < s.todo := by
  have hold : s.todo = 12 * (rest.length + 1) + 0 +
      ∑ w ∈ Finset.range s.created, (s.workers w).work := by
    rw [State.todo, hl, hinput, List.length_cons, LoopPc.work]
  cases hd : cfg.delivery msg with
  | none =>
    simp only [State.read, hd, State.todo, hl, LoopPc.work] at hold ⊢
    omega
  | some d =>
    obtain ⟨c, payload⟩ := d
    cases hq : s.convQueues c with
    | some q =>
      simp only [State.read, hd, State.deliver, hq, State.todo, LoopPc.work] at hold ⊢
      omega
    | none =>
      have hsum : ∀ wk, ∑ w ∈ Finset.range s.created,
          (Function.update s.workers s.created wk w).work =
            ∑ w ∈ Finset.range s.created, (s.workers w).work := fun wk =>
        Finset.sum_congr rfl fun w hw => by
          rw [Function.update_of_ne (Nat.ne_of_lt (Finset.mem_range.mp hw))]
      simp only [State.read, hd, State.deliver, hq, State.todo, LoopPc.work,
        Finset.sum_range_succ, Function.update_self, hsum, Worker.work_mk, WorkerPc.work,
        List.length_nil] at hold ⊢
      omega

/-- The running task takes a turn. -/
def Turn (cfg : Config) (hold : Item → Bool) (s : State) : Prop :=
  ∃ a s', calm hold s a ∧ step cfg s a = some s' ∧ s'.todo < s.todo

theorem turn_of_loop (ht : TableInv s) (hcpu : s.cpu = some .loop) (hready : s.ready cfg .loop) :
    Turn cfg hold s := by
  cases hl : s.loop with
  | fetching =>
    cases hinput : s.input with
    | nil => simp [State.ready, hl, hinput] at hready
    | cons msg rest =>
      exact ⟨.loop .read, s.read cfg msg rest, rfl, by simp [step, hcpu, loopStep, hl, hinput],
        todo_read_lt hl hinput⟩
  | putting q item =>
    have hroom : cfg.full (s.workers q).queue = false := by simpa [State.ready, hl] using hready
    refine ⟨.loop .put, { s.enqueue q item with
      loop := .fetching
      enqueued := s.enqueued ++ item.offset.toList }, rfl, ?_, ?_⟩
    · simp [step, hcpu, loopStep, hl, hroom]
    · have hsum := State.sum_modify Worker.work (ht.loopQueue q item hl).1
        fun wk => { wk with queue := wk.queue ++ [item] }
      have hone : Worker.work { s.workers q with queue := (s.workers q).queue ++ [item] } =
          (s.workers q).work + 3 := by
        simp only [Worker.work, List.length_append, List.length_cons, List.length_nil]
        omega
      rw [hone] at hsum
      have hold : s.todo = 12 * s.input.length + 6 +
          ∑ v ∈ Finset.range s.created, (s.workers v).work := by rw [State.todo, hl, LoopPc.work]
      rw [hold]
      show 12 * s.input.length + 0 +
        ∑ v ∈ Finset.range s.created, ((s.enqueue q item).workers v).work < _
      rw [State.enqueue]
      omega

/-- Whatever the worker does with an item, it has the rest of its queue afterwards. -/
theorem take_eq (s : State) (w : ℕ) (item : Item) (rest : List Item) :
    ∃ pc : WorkerPc, pc.work ≤ 1 ∧
      (s.take w item rest).workers = (s.modify w ({ · with queue := rest, pc := pc })).workers ∧
      (s.take w item rest).input = s.input ∧ (s.take w item rest).loop = s.loop ∧
      (s.take w item rest).created = s.created := by
  rw [State.take]
  split
  · exact ⟨.exited, by decide, s.workers_exit w rest, rfl, rfl, rfl⟩
  · split
    · exact ⟨.died, by decide, s.workers_die w rest, rfl, rfl, rfl⟩
    · rw [State.dispatch]
      split
      · exact ⟨.handling item, Nat.le_refl 1, by simp [State.setPc, State.modify], rfl, rfl, rfl⟩
      · exact ⟨.getting, by decide, by simp [State.setPc, State.modify], rfl, rfl, rfl⟩
      · exact ⟨.getting, by decide, by simp [State.setPc, State.modify], rfl, rfl, rfl⟩

theorem turn_of_worker (ht : TableInv s) {w : ℕ} (hcpu : s.cpu = some (.worker w))
    (hready : s.ready cfg (.worker w))
    (hheld : ∀ item, (s.workers w).pc = .handling item → hold item = false) :
    Turn cfg hold s := by
  have hw : w < s.created := ht.lt_created (ht.cpu w hcpu)
  cases hpc : (s.workers w).pc with
  | created =>
    rcases Nat.eq_zero_or_pos s.permits with hzero | hfree
    · refine ⟨.worker .acquire, { s.setPc w .acquiring with cpu := none }, rfl, ?_,
        todo_lt_of_modify (f := ({ · with pc := .acquiring })) hw ?_ rfl rfl rfl rfl⟩
      · simp [step, hcpu, workerStep, hpc, hzero]
      · simp [Worker.work, hpc, WorkerPc.work]
    · refine ⟨.worker .acquire, { s.setPc w .getting with permits := s.permits - 1 }, rfl, ?_,
        todo_lt_of_modify (f := ({ · with pc := .getting })) hw ?_ rfl rfl rfl rfl⟩
      · simp [step, hcpu, workerStep, hpc, hfree]
      · simp [Worker.work, hpc, WorkerPc.work]
  | acquiring =>
    have hfree : 0 < s.permits := by simpa [State.ready, hpc] using hready
    refine ⟨.worker .acquire, { s.setPc w .getting with permits := s.permits - 1 }, rfl, ?_,
      todo_lt_of_modify (f := ({ · with pc := .getting })) hw ?_ rfl rfl rfl rfl⟩
    · simp [step, hcpu, workerStep, hpc, hfree]
    · simp [Worker.work, hpc, WorkerPc.work]
  | getting =>
    cases hq : (s.workers w).queue with
    | nil => simp [State.ready, hpc, hq] at hready
    | cons item rest =>
      refine ⟨.worker .get, s.take w item rest, rfl, by simp [step, hcpu, workerStep, hpc, hq], ?_⟩
      have hless : ∀ pc : WorkerPc, pc.work ≤ 1 →
          Worker.work { s.workers w with queue := rest, pc := pc } < (s.workers w).work := by
        intro pc hle
        simp only [Worker.work, hq, hpc, List.length_cons, WorkerPc.work] at hle ⊢
        omega
      obtain ⟨pc, hle, hsame, hinput, hloop, hcreated⟩ := take_eq s w item rest
      exact todo_lt_of_modify (f := ({ · with queue := rest, pc := pc })) hw (hless pc hle) hsame
        hinput hloop hcreated
  | handling item =>
    refine ⟨.worker .handlerRaises, s.setPc w .getting, ?_, ?_,
      todo_lt_of_modify (f := ({ · with pc := .getting })) hw ?_ rfl rfl rfl rfl⟩
    · simp [calm, hcpu, hpc, hheld item hpc]
    · simp [step, hcpu, workerStep, hpc]
    · simp [Worker.work, hpc, WorkerPc.work]
  | putting q =>
    obtain rfl := ht.workerQueue w q hpc
    have hroom : cfg.full (s.workers q).queue = false := by simpa [State.ready, hpc] using hready
    refine ⟨.worker .putSentinel, (s.enqueue q .sentinel).setPc q .getting, rfl, ?_,
      todo_lt_of_modify
        (f := fun wk => { wk with queue := wk.queue ++ [.sentinel], pc := .getting })
        hw ?_ ?_ rfl rfl rfl⟩
    · simp [step, hcpu, workerStep, hpc, hroom]
    · simp only [Worker.work, hpc, WorkerPc.work, List.length_append, List.length_cons,
        List.length_nil]
      omega
    · rw [State.setPc_enqueue]
  | exited | died => simp [State.ready, hpc] at hready

/-- A running task that is not ready, or that is in a handler, can give up the processor. -/
theorem exists_yield (ht : TableInv s) {t : Task} (hcpu : s.cpu = some t)
    (hidle : s.ready cfg t = false ∨ ∃ w item, t = .worker w ∧ (s.workers w).pc = .handling item) :
    ∃ a s', calm hold s a ∧ step cfg s a = some s' ∧ s'.work < s.work := by
  have hyield : State.work { s with cpu := none } < s.work := by simp [State.work, State.todo, hcpu]
  cases t with
  | loop =>
    cases hl : s.loop with
    | fetching => exact ⟨.loop .awaitRecord, _, rfl, by simp [step, hcpu, loopStep, hl], hyield⟩
    | putting q item =>
      have hfull : cfg.full (s.workers q).queue = true := by
        simpa [State.ready, hl] using hidle
      exact ⟨.loop .put, _, rfl, by simp [step, hcpu, loopStep, hl, hfull], hyield⟩
  | worker w =>
    have hlive := ht.cpu w hcpu
    cases hpc : (s.workers w).pc with
    | created => simp [State.ready, hpc] at hidle
    | acquiring =>
      have hzero : s.permits = 0 := by simpa [State.ready, hpc] using hidle
      have hsame : s.setPc w .acquiring = s := by
        simp [State.setPc, State.modify, ← hpc]
      refine ⟨.worker .acquire, { s with cpu := none }, rfl, ?_, hyield⟩
      simp [step, hcpu, workerStep, hpc, hzero, hsame]
    | getting =>
      have hempty : (s.workers w).queue = [] := by simpa [State.ready, hpc] using hidle
      exact ⟨.worker .get, _, rfl, by simp [step, hcpu, workerStep, hpc, hempty], hyield⟩
    | handling item =>
      exact ⟨.worker .handlerSuspends, _, rfl, by simp [step, hcpu, workerStep, hpc], hyield⟩
    | putting q =>
      have hfull : cfg.full (s.workers q).queue = true := by simpa [State.ready, hpc] using hidle
      exact ⟨.worker .putSentinel, _, rfl, by simp [step, hcpu, workerStep, hpc, hfull], hyield⟩
    | exited | died => simp [hpc, WorkerPc.live] at hlive

theorem turn_of_ready (ht : TableInv s) {t : Task} (hcpu : s.cpu = some t)
    (hready : s.ready cfg t) (hheld : ¬s.Held hold t) : Turn cfg hold s := by
  cases t with
  | loop => exact turn_of_loop ht hcpu hready
  | worker w =>
    refine turn_of_worker ht hcpu hready fun item hpc => ?_
    by_contra hno
    exact hheld ⟨w, item, rfl, hpc, by simpa using hno⟩

/-- **A running task can take a step**, and there is less to do afterwards. -/
theorem exists_step_of_running (cfg : Config) (hold : Item → Bool) (ht : TableInv s) {t : Task}
    (hcpu : s.cpu = some t) :
    ∃ a s', calm hold s a ∧ step cfg s a = some s' ∧ s'.work < s.work := by
  by_cases hheld : s.Held hold t
  · obtain ⟨w, item, rfl, hpc, -⟩ := hheld
    exact exists_yield ht hcpu (Or.inr ⟨w, item, rfl, hpc⟩)
  · cases hready : s.ready cfg t with
    | false => exact exists_yield ht hcpu (Or.inl hready)
    | true =>
      obtain ⟨a, s', hcalm, hs, hlt⟩ := turn_of_ready ht hcpu hready hheld
      exact ⟨a, s', hcalm, hs, work_lt_of_todo_lt hlt⟩

end Consumer

end TitanChat
