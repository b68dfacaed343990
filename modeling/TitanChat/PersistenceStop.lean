import TitanChat.WritePath

/-!
# Stopping the persistence worker

`stop_persistence_worker` cancels the task of the worker, stops the consumer and then the producer.
The task is suspended somewhere when it is cancelled: it waits for the next record, for a statement,
for the end of a backoff or for the publication of a dead letter. What it awaits raises
`CancelledError`, which is no `Exception`, so that neither the retry nor the loop catches it. The
record is given up where it is, and the consumer commits its offset all the same.

A statement or a publication that is cancelled may still have its effect.

## Main definitions

* `Task`: what the worker waits for
* `State`, `Signal`, `step`: the worker and its stop
* `Kept`: a record that its handler has completed or that is a dead letter
* `Safe`: the condition on a step

## Main results

* `record_refined`: a record that is not interrupted is consumed by `Persistence.consume`
* `none_lost_iff`: the exact statement
-/

namespace TitanChat

open WideColumn Transition Persistence

namespace PersistenceStop

/-! ### The worker -/

/-- A record of a known type, as it is decoded. -/
structure Record where
  value : Json
  payload : Dict Json
  handler : Dict Json → Persistence.Step Unit
  decoded : value.dict? = some payload
  known : recordHandler payload = .ok (some handler)

namespace Record

/-- The statements of the handler. -/
def script (r : Record) : Script := (recordScript r.value).getD .done

/-- What `_send_to_dlq` publishes; `none` if it raises before. -/
def deadLetter (r : Record) : Option DeadLetter :=
  match optional r.payload "conversation_id" (.str "unknown"),
    (Json.obj [("original_payload", .ofDict r.payload)]).transit with
  | .str key, some _ => some ⟨key, r.payload, MAX_RETRIES⟩
  | _, _ => none

end Record

/-- What the task is waiting for. -/
inductive Task where
  /-- `async for msg in _consumer`. -/
  | record
  /-- `db_execute`, with so many attempts after this one. -/
  | execute (r : Record) (n : ℕ) (stmt : Statement Table) (rest : Script)
  /-- `asyncio.sleep`, with so many attempts after the next. -/
  | sleep (r : Record) (n : ℕ)
  /-- `_producer.send_and_wait`. -/
  | publish (r : Record) (dead : DeadLetter)
  /-- Cancelled. -/
  | ended

/-- The record that the task is at. -/
def Task.current : Task → Option Record
  | .execute r _ _ _ | .sleep r _ | .publish r _ => some r
  | .record | .ended => none

/-- Where `stop_persistence_worker` is. -/
inductive StopPc where
  /-- Not called. -/
  | running
  /-- The task has ended. -/
  | cancelled
  /-- The consumer is stopped. -/
  | stopped
  /-- The producer is stopped too. -/
  | finished

structure State where
  db : Database Table
  /-- How many records the iterator has handed out. -/
  handed : ℕ
  task : Task
  /-- The records whose handler has returned. -/
  completed : List ℕ
  /-- The dead letters, with the number of their record. -/
  deadLetters : List (ℕ × DeadLetter)
  stop : StopPc
  /-- The committed offset, counted from the one that the worker has started with. -/
  committed : ℕ

inductive Signal where
  | fetch
  /-- The call to the database ends. -/
  | execute (fails : Bool)
  | wake
  /-- The publication ends. -/
  | send (raises : Bool)
  /-- The stop cancels the task; what it awaits may still have its effect. -/
  | cancel (landed : Bool)
  | stopConsumer
  | stopProducer

namespace State

/-- The state after `start_persistence_worker`. -/
def start (db : Database Table) : State where
  db := db
  handed := 0
  task := .record
  completed := []
  deadLetters := []
  stop := .running
  committed := 0

/-- An attempt has failed, and so many may follow. -/
def fail (s : State) (r : Record) (n : ℕ) : State :=
  match n with
  | 0 =>
    match r.deadLetter with
    | some dead => { s with task := .publish r dead }
    | none => { s with task := .record }
  | n + 1 => { s with task := .sleep r n }

/-- The handler goes on to its next `await`. -/
def proceed (s : State) (r : Record) (n : ℕ) : Script → State
  | .done => { s with task := .record, completed := s.completed ++ [s.handed - 1] }
  | .fails => s.fail r n
  | .write stmt rest => { s with task := .execute r n stmt rest }

/-- A call to the database returns or raises. -/
def executed (s : State) (r : Record) (n : ℕ) (stmt : Statement Table) (rest : Script)
    (fails : Bool) : State :=
  match fails, s.db.execute schema stmt with
  | false, some db => { s with db := db }.proceed r n rest
  | _, _ => s.fail r n

/-- The dead letter of the current record is stored. -/
def store (s : State) (dead : DeadLetter) : State :=
  { s with deadLetters := s.deadLetters ++ [(s.handed - 1, dead)] }

/-- What is awaited has its effect. -/
def land (s : State) : State :=
  match s.task with
  | .execute _ _ stmt _ => { s with db := s.db.apply schema stmt }
  | .publish _ dead => s.store dead
  | .record | .sleep _ _ | .ended => s

/-- `_task.cancel()` and `await _task`. -/
def cancel (s : State) (landed : Bool) : State :=
  { (if landed then s.land else s) with task := .ended, stop := .cancelled }

end State

def step (log : List Record) (s : State) : Signal → Option State
  | .fetch =>
    match s.task with
    | .record => log[s.handed]?.map fun r =>
      { s with handed := s.handed + 1 }.proceed r (MAX_RETRIES - 1) r.script
    | _ => none
  | .execute fails =>
    match s.task with
    | .execute r n stmt rest => some (s.executed r n stmt rest fails)
    | _ => none
  | .wake =>
    match s.task with
    | .sleep r n => some (s.proceed r n r.script)
    | _ => none
  | .send raises =>
    match s.task with
    | .publish _ dead => some { (if raises then s else s.store dead) with task := .record }
    | _ => none
  | .cancel landed =>
    match s.stop with
    | .running => some (s.cancel landed)
    | _ => none
  | .stopConsumer =>
    match s.stop with
    | .cancelled => some { s with stop := .stopped, committed := s.handed }
    | _ => none
  | .stopProducer =>
    match s.stop with
    | .stopped => some { s with stop := .finished }
    | _ => none

/-! ### The property and the condition -/

/-- The handler has completed the record, or it is a dead letter. -/
def Kept (log : List Record) (s : State) (i : ℕ) : Prop :=
  i ∈ s.completed ∨
    ∃ r dead, log[i]? = some r ∧ (i, dead) ∈ s.deadLetters ∧ dead.original_payload = r.payload

/-- The last attempt at a record ends with an error. -/
inductive Exhausts (s : State) : Signal → Record → Prop
  | execute {r : Record} {stmt : Statement Table} {rest : Script} {fails : Bool}
      (task : s.task = .execute r 0 stmt rest)
      (h : fails ∨ s.db.execute schema stmt = none ∨ rest = .fails) :
      Exhausts s (.execute fails) r
  | wake {r : Record} (task : s.task = .sleep r 0) (h : r.script = .fails) : Exhausts s .wake r

/-- **The condition.** The task is cancelled between two records, or in the publication of a dead
letter that is stored; and a record whose attempts have all failed can be published. -/
def Safe (s : State) (a : Signal) : Prop :=
  match a with
  | .cancel landed => s.task = .record ∨ landed ∧ ∃ r dead, s.task = .publish r dead
  | .send raises => raises = false
  | _ => ∀ r, Exhausts s a r → r.deadLetter.isSome

/-! ### What a step can do -/

/-- The task is at the record. -/
inductive At (r : Record) : Task → Prop
  | execute (n : ℕ) (stmt : Statement Table) (rest : Script) : At r (.execute r n stmt rest)
  | sleep (n : ℕ) : At r (.sleep r n)
  | publish {dead : DeadLetter} (h : r.deadLetter = some dead) : At r (.publish r dead)

theorem At.current {r : Record} {t : Task} (h : At r t) : t.current = some r := by
  cases h <;> rfl

/-- How the task goes on with a record, which it may lose. -/
inductive Went (r : Record) (s : State) (lost : Prop) : State → Prop
  | completes (db : Database Table) (hkept : ¬lost) :
      Went r s lost
        { s with db := db, task := .record, completed := s.completed ++ [s.handed - 1] }
  | awaits (db : Database Table) {t : Task} (ht : At r t) (hkept : ¬lost) :
      Went r s lost { s with db := db, task := t }
  | loses (db : Database Table) (hlost : lost) : Went r s lost { s with db := db, task := .record }

section Steps

variable {log : List Record} {s s' : State} {r : Record}

theorem Went.congr {lost lost' : Prop} (h : Went r s lost s') (hiff : lost ↔ lost') :
    Went r s lost' s' := by
  rwa [← propext hiff]

theorem went_fail (s : State) (r : Record) (n : ℕ) (db : Database Table) :
    Went r s (n = 0 ∧ r.deadLetter = none) ({ s with db := db }.fail r n) := by
  cases n with
  | zero =>
    rw [State.fail]
    cases hdead : r.deadLetter with
    | none => exact .loses db ⟨rfl, rfl⟩
    | some dead => exact .awaits db (.publish hdead) (by simp)
  | succ n => exact .awaits db (.sleep n) (by simp)

theorem went_proceed (s : State) (r : Record) (n : ℕ) (sc : Script) (db : Database Table) :
    Went r s (sc = .fails ∧ n = 0 ∧ r.deadLetter = none) ({ s with db := db }.proceed r n sc) := by
  cases sc with
  | done => exact .completes db (by simp)
  | fails => exact (went_fail s r n db).congr (by simp)
  | write stmt rest => exact .awaits db (.execute n stmt rest) (by simp)

theorem went_executed (s : State) (r : Record) (n : ℕ) (stmt : Statement Table) (rest : Script)
    (fails : Bool) : Went r s
      ((fails ∨ s.db.execute schema stmt = none ∨ rest = .fails) ∧ n = 0 ∧ r.deadLetter = none)
      (s.executed r n stmt rest fails) := by
  cases fails with
  | true =>
    have heq : s.executed r n stmt rest true = s.fail r n := rfl
    rw [heq]
    exact (went_fail s r n s.db).congr (by simp)
  | false =>
    cases hdb : s.db.execute schema stmt with
    | none =>
      have heq : s.executed r n stmt rest false = s.fail r n := by simp only [State.executed, hdb]
      rw [heq]
      exact (went_fail s r n s.db).congr (by simp)
    | some db =>
      have heq : s.executed r n stmt rest false = { s with db := db }.proceed r n rest := by
        simp only [State.executed, hdb]
      rw [heq]
      exact (went_proceed s r n rest db).congr (by simp)

/-- What a step can do. -/
inductive Stepped (log : List Record) (s : State) : Signal → State → Prop
  | fetched {r : Record} {s' : State} (task : s.task = .record) (next : log[s.handed]? = some r)
      (went : Went r { s with handed := s.handed + 1 } False s') : Stepped log s .fetch s'
  | worked {a : Signal} {r : Record} {s' : State} (current : s.task.current = some r)
      (safe : Safe s a ↔ ¬(Exhausts s a r ∧ r.deadLetter = none))
      (went : Went r s (Exhausts s a r ∧ r.deadLetter = none) s') : Stepped log s a s'
  | sent {r : Record} {dead : DeadLetter} (raises : Bool) (task : s.task = .publish r dead) :
      Stepped log s (.send raises)
        { (if raises then s else s.store dead) with task := .record }
  | cancelled (landed : Bool) (stop : s.stop = .running) :
      Stepped log s (.cancel landed) (s.cancel landed)
  | stopped (stop : s.stop = .cancelled) :
      Stepped log s .stopConsumer { s with stop := .stopped, committed := s.handed }
  | finished (stop : s.stop = .stopped) : Stepped log s .stopProducer { s with stop := .finished }

theorem exhausts_execute_iff {n : ℕ} {stmt : Statement Table} {rest : Script} (fails : Bool)
    (task : s.task = .execute r n stmt rest) (r' : Record) : Exhausts s (.execute fails) r' ↔
      r = r' ∧ n = 0 ∧ (fails ∨ s.db.execute schema stmt = none ∨ rest = .fails) := by
  constructor
  · intro hex
    cases hex with
    | execute task' h =>
      obtain ⟨rfl, rfl, rfl, rfl⟩ := Task.execute.inj (task.symm.trans task')
      exact ⟨rfl, rfl, h⟩
  · rintro ⟨rfl, rfl, h⟩
    exact .execute task h

theorem exhausts_wake_iff {n : ℕ} (task : s.task = .sleep r n) (r' : Record) :
    Exhausts s .wake r' ↔ r = r' ∧ n = 0 ∧ r.script = .fails := by
  constructor
  · intro hex
    cases hex with
    | wake task' h =>
      obtain ⟨rfl, rfl⟩ := Task.sleep.inj (task.symm.trans task')
      exact ⟨rfl, rfl, h⟩
  · rintro ⟨rfl, rfl, h⟩
    exact .wake task h

/-- **Inversion of a step.** -/
theorem stepped_of_step {a : Signal} (h : step log s a = some s') : Stepped log s a s' := by
  cases a with
  | fetch =>
    rw [step] at h
    split at h
    · next htask =>
      obtain ⟨r, hr, rfl⟩ := Option.map_eq_some_iff.mp h
      exact .fetched htask hr ((went_proceed { s with handed := s.handed + 1 } r _ _ s.db).congr
        (by simp [MAX_RETRIES]))
    · exact absurd h nofun
  | execute fails =>
    rw [step] at h
    split at h
    · next r n stmt rest htask =>
      obtain rfl := Option.some.inj h
      have hiff := exhausts_execute_iff fails htask
      refine .worked (by rw [htask]; rfl) ?_ ((went_executed s r n stmt rest fails).congr ?_)
      · simp [Safe, hiff, Option.isSome_iff_ne_none]
      · rw [hiff]
        tauto
    · exact absurd h nofun
  | wake =>
    rw [step] at h
    split at h
    · next r n htask =>
      obtain rfl := Option.some.inj h
      have hiff := exhausts_wake_iff htask
      refine .worked (by rw [htask]; rfl) ?_ ((went_proceed s r n r.script s.db).congr ?_)
      · simp [Safe, hiff, Option.isSome_iff_ne_none]
      · rw [hiff]
        tauto
    · exact absurd h nofun
  | send raises =>
    rw [step] at h
    split at h
    · next r dead htask =>
      obtain rfl := Option.some.inj h
      exact .sent raises htask
    · exact absurd h nofun
  | cancel landed =>
    rw [step] at h
    split at h
    · next hstop =>
      obtain rfl := Option.some.inj h
      exact .cancelled landed hstop
    · exact absurd h nofun
  | stopConsumer =>
    rw [step] at h
    split at h
    · next hstop =>
      obtain rfl := Option.some.inj h
      exact .stopped hstop
    · exact absurd h nofun
  | stopProducer =>
    rw [step] at h
    split at h
    · next hstop =>
      obtain rfl := Option.some.inj h
      exact .finished hstop
    · exact absurd h nofun

end Steps

/-! ### What a run loses -/

/-- What holds of every state: the record at hand is the last that was handed out, and it is neither
completed nor a dead letter. -/
structure Inv (log : List Record) (s : State) : Prop where
  current : ∀ r, s.task.current = some r →
    At r s.task ∧ ∃ i, s.handed = i + 1 ∧ log[i]? = some r ∧ ¬Kept log s i
  kept : ∀ i, Kept log s i → i < s.handed
  ended : s.task = .ended ↔ s.stop ≠ .running
  committed : s.stop = .stopped ∨ s.stop = .finished → s.committed = s.handed

/-- Every record that was handed out is kept, but for the one at hand. -/
def NoneLost (log : List Record) (s : State) : Prop :=
  ∀ i < s.handed, Kept log s i ∨ s.task.current.isSome ∧ s.handed = i + 1

/-- A record is at hand, with its number. -/
structure Holds (log : List Record) (s : State) (r : Record) (i : ℕ) : Prop where
  handed : s.handed = i + 1
  record : log[i]? = some r
  notKept : ¬Kept log s i
  kept : ∀ j, Kept log s j → j < s.handed
  running : s.stop = .running

section Run

variable {log : List Record} {s s' t : State} {r : Record} {i : ℕ} {lost : Prop}

theorem Inv.holds (h : Inv log s) (hcur : s.task.current = some r) : ∃ i, Holds log s r i := by
  obtain ⟨-, i, hi, hr, hnot⟩ := h.current r hcur
  refine ⟨i, hi, hr, hnot, h.kept, ?_⟩
  by_contra hstop
  rw [h.ended.mpr hstop] at hcur
  exact absurd hcur nofun

theorem Inv.holds_next (h : Inv log s) (htask : s.task = .record)
    (hr : log[s.handed]? = some r) :
    Holds log { s with handed := s.handed + 1 } r s.handed where
  handed := rfl
  record := hr
  notKept hkept := absurd (h.kept _ hkept) (lt_irrefl _)
  kept j hj := (h.kept j hj).trans (Nat.lt_succ_self _)
  running := by
    by_contra hstop
    exact absurd (htask.symm.trans (h.ended.mpr hstop)) nofun

theorem noneLost_iff_of_current (hcur : s.task.current = none) :
    NoneLost log s ↔ ∀ j < s.handed, Kept log s j := by
  refine forall_congr' fun j => imp_congr_right fun _ => or_iff_left ?_
  rintro ⟨hsome, -⟩
  rw [hcur] at hsome
  exact absurd hsome nofun

/-- With a record at hand, none is lost if those before it are kept. -/
theorem noneLost_iff_of_handed (hhanded : s.handed = i + 1) (hcur : s.task.current.isSome)
    (hnot : ¬Kept log s i) : NoneLost log s ↔ ∀ j < i, Kept log s j := by
  constructor
  · intro h j hj
    obtain hkept | ⟨-, heq⟩ := h j (by omega)
    · exact hkept
    · omega
  · intro h j hj
    obtain hj | rfl := Nat.lt_succ_iff_lt_or_eq.mp (hj.trans_eq hhanded)
    · exact Or.inl (h j hj)
    · exact Or.inr ⟨hcur, hhanded⟩

/-! ### The end of a record -/

/-- A record is completed. -/
theorem kept_completed (log : List Record) (hi : s.handed = i + 1)
    (ht : t.completed = s.completed ++ [s.handed - 1]) (hd : t.deadLetters = s.deadLetters)
    (j : ℕ) : Kept log t j ↔ Kept log s j ∨ j = i := by
  rw [Kept, Kept, ht, hd, hi, Nat.add_sub_cancel, List.mem_append, List.mem_singleton]
  exact or_right_comm

/-- A record is published as a dead letter. -/
theorem kept_store {dead : DeadLetter} (hr : log[i]? = some r) (hdead : r.deadLetter = some dead)
    (hi : s.handed = i + 1) (ht : t.completed = s.completed)
    (hd : t.deadLetters = s.deadLetters ++ [(s.handed - 1, dead)]) (j : ℕ) :
    Kept log t j ↔ Kept log s j ∨ j = i := by
  have hpayload : dead.original_payload = r.payload := by
    rw [Record.deadLetter] at hdead
    split at hdead
    · rw [← Option.some.inj hdead]
    · exact absurd hdead nofun
  rw [Kept, Kept, ht, hd, hi, Nat.add_sub_cancel, or_assoc]
  refine or_congr_right ?_
  constructor
  · rintro ⟨r', dead', hr', hmem, heq⟩
    obtain hmem | hmem := List.mem_append.mp hmem
    · exact Or.inl ⟨r', dead', hr', hmem, heq⟩
    · exact Or.inr (Prod.mk.inj (List.mem_singleton.mp hmem)).1
  · rintro (⟨r', dead', hr', hmem, heq⟩ | rfl)
    · exact ⟨r', dead', hr', List.mem_append_left _ hmem, heq⟩
    · exact ⟨r, dead, hr, List.mem_append_right _ (List.mem_singleton_self _), hpayload⟩

namespace Holds

/-- The task leaves the record, and keeps no other. -/
theorem inv (hs : Holds log s r i) (hhanded : t.handed = s.handed)
    (htask : t.task = .record ∧ t.stop = .running ∨ t.task = .ended ∧ t.stop = .cancelled)
    (hkept : ∀ j, Kept log t j → Kept log s j ∨ j = i) : Inv log t where
  current r' hr' := by
    obtain ⟨htask, -⟩ | ⟨htask, -⟩ := htask
    · rw [htask] at hr'; exact absurd hr' nofun
    · rw [htask] at hr'; exact absurd hr' nofun
  kept j hj := by
    rw [hhanded]
    obtain hj | rfl := hkept j hj
    · exact hs.kept j hj
    · exact hs.handed ▸ Nat.lt_succ_self _
  ended := by
    obtain ⟨htask, hstop⟩ | ⟨htask, hstop⟩ := htask
    · simp [htask, hstop]
    · simp [htask, hstop]
  committed hstop := by
    obtain ⟨-, hstop'⟩ | ⟨-, hstop'⟩ := htask
    · simp [hstop'] at hstop
    · simp [hstop'] at hstop

/-- It keeps the record. -/
theorem noneLost_iff (hs : Holds log s r i) (hkept : ∀ j, Kept log t j ↔ Kept log s j ∨ j = i)
    (hhanded : t.handed = s.handed) (hcur : t.task.current = none) :
    NoneLost log t ↔ ∀ j < i, Kept log s j := by
  rw [noneLost_iff_of_current hcur, hhanded, hs.handed]
  constructor
  · intro h j hj
    exact ((hkept j).mp (h j (hj.trans (Nat.lt_succ_self i)))).resolve_right hj.ne
  · intro h j hj
    exact (hkept j).mpr ((Nat.lt_succ_iff_lt_or_eq.mp hj).imp_left (h j))

/-- It does not keep the record. -/
theorem not_noneLost (hs : Holds log s r i) (hhanded : t.handed = s.handed)
    (hcur : t.task.current = none) (hkept : Kept log t i → Kept log s i) : ¬NoneLost log t := by
  intro h
  refine hs.notKept (hkept ((noneLost_iff_of_current hcur).mp h i ?_))
  rw [hhanded, hs.handed]
  exact Nat.lt_succ_self _

end Holds

/-! ### One step -/

/-- The task goes on, and the invariant is kept. -/
theorem Went.inv (h : Went r s lost s') (hs : Holds log s r i) : Inv log s' := by
  cases h with
  | completes db hkept =>
    have hiff := kept_completed log (t := { s with
      db := db, task := .record, completed := s.completed ++ [s.handed - 1] }) hs.handed rfl rfl
    exact hs.inv rfl (Or.inl ⟨rfl, hs.running⟩) fun j => (hiff j).mp
  | awaits db ht hkept =>
    refine ⟨fun r' hr' => ?_, hs.kept, iff_of_false ?_ (not_not_intro hs.running), ?_⟩
    · obtain rfl := Option.some.inj (ht.current.symm.trans hr')
      exact ⟨ht, i, hs.handed, hs.record, hs.notKept⟩
    · rintro rfl
      exact absurd ht.current nofun
    · simp [hs.running]
  | loses db hlost => exact hs.inv rfl (Or.inl ⟨rfl, hs.running⟩) fun j => Or.inl

/-- The record is lost exactly in the case `lost`. -/
theorem Went.noneLost_iff (h : Went r s lost s') (hs : Holds log s r i) :
    NoneLost log s' ↔ (∀ j < i, Kept log s j) ∧ ¬lost := by
  cases h with
  | completes db hkept =>
    have hiff := kept_completed log (t := { s with
      db := db, task := .record, completed := s.completed ++ [s.handed - 1] }) hs.handed rfl rfl
    exact (hs.noneLost_iff hiff rfl rfl).trans (and_iff_left hkept).symm
  | @awaits db t ht hkept =>
    have hcur : t.current.isSome := Option.isSome_of_eq_some ht.current
    exact (noneLost_iff_of_handed (s := { s with db := db, task := t }) hs.handed hcur
      hs.notKept).trans (and_iff_left hkept).symm
  | loses db hlost =>
    exact iff_of_false (hs.not_noneLost rfl rfl id) fun h => h.2 hlost

/-- What a publication that is stored keeps. -/
theorem Inv.kept_publish (h : Inv log s) {dead : DeadLetter} (htask : s.task = .publish r dead)
    (hs : Holds log s r i) (ht : t.completed = s.completed)
    (hd : t.deadLetters = s.deadLetters ++ [(s.handed - 1, dead)]) (j : ℕ) :
    Kept log t j ↔ Kept log s j ∨ j = i := by
  have hat := (h.current r (by rw [htask]; rfl)).1
  rw [htask] at hat
  cases hat with
  | publish hdead => exact kept_store hs.record hdead hs.handed ht hd j

theorem Inv.noneLost_iff (hs : Holds log s r i) (hcur : s.task.current = some r) :
    NoneLost log s ↔ ∀ j < i, Kept log s j :=
  noneLost_iff_of_handed hs.handed (Option.isSome_of_eq_some hcur) hs.notKept

theorem inv_iff_of_send (h : Inv log s) {dead : DeadLetter} (htask : s.task = .publish r dead)
    (raises : Bool) :
    Inv log { (if raises then s else s.store dead) with task := .record } ∧
      (NoneLost log { (if raises then s else s.store dead) with task := .record } ↔
        NoneLost log s ∧ Safe s (.send raises)) := by
  have hcur : s.task.current = some r := by rw [htask]; rfl
  obtain ⟨i, hs⟩ := h.holds hcur
  cases raises with
  | true =>
    exact ⟨hs.inv rfl (Or.inl ⟨rfl, hs.running⟩) fun j => Or.inl,
      iff_of_false (hs.not_noneLost rfl rfl id) fun h => nomatch h.2⟩
  | false =>
    have hiff := h.kept_publish (t := { s.store dead with task := .record }) htask hs rfl rfl
    refine ⟨hs.inv rfl (Or.inl ⟨rfl, hs.running⟩) fun j => (hiff j).mp, ?_⟩
    rw [Inv.noneLost_iff hs hcur]
    exact (hs.noneLost_iff hiff rfl rfl).trans (and_iff_left rfl).symm

theorem inv_iff_of_cancel (h : Inv log s) (hstop : s.stop = .running) (landed : Bool) :
    Inv log (s.cancel landed) ∧
      (NoneLost log (s.cancel landed) ↔ NoneLost log s ∧ Safe s (.cancel landed)) := by
  have hended : Task.ended = .ended ∧ StopPc.cancelled = .cancelled := ⟨rfl, rfl⟩
  cases htask : s.task with
  | ended => exact absurd hstop (h.ended.mp htask)
  | record =>
    have hcancel : s.cancel landed = { s with task := .ended, stop := .cancelled } := by
      cases landed <;> simp [State.cancel, State.land, htask]
    rw [hcancel, and_iff_left (show Safe s (.cancel landed) from Or.inl htask),
      noneLost_iff_of_current (s := s) (by rw [htask]; rfl)]
    exact ⟨⟨nofun, h.kept, iff_of_true rfl nofun, by simp⟩, noneLost_iff_of_current rfl⟩
  | sleep r n | execute r n stmt rest =>
    obtain ⟨i, hs⟩ := h.holds (r := r) (by rw [htask]; rfl)
    have hhanded : (s.cancel landed).handed = s.handed := by
      cases landed <;> simp [State.cancel, State.land, htask]
    have hkept (j : ℕ) (hj : Kept log (s.cancel landed) j) : Kept log s j := by
      cases landed <;> simpa [State.cancel, State.land, htask, Kept] using hj
    exact ⟨hs.inv hhanded (Or.inr hended) fun j hj => Or.inl (hkept j hj),
      iff_of_false (hs.not_noneLost hhanded rfl (hkept i)) (by simp [Safe, htask])⟩
  | publish r dead =>
    have hcur : s.task.current = some r := by rw [htask]; rfl
    obtain ⟨i, hs⟩ := h.holds hcur
    cases landed with
    | false =>
      exact ⟨hs.inv rfl (Or.inr hended) fun j => Or.inl,
        iff_of_false (hs.not_noneLost rfl rfl id) (by simp [Safe, htask])⟩
    | true =>
      have hcancel : s.cancel true = { s.store dead with task := .ended, stop := .cancelled } := by
        simp [State.cancel, State.land, htask]
      have hhanded : (s.cancel true).handed = s.handed := by rw [hcancel]; rfl
      have hiff := h.kept_publish (t := s.cancel true) htask hs (by rw [hcancel]; rfl)
        (by rw [hcancel]; rfl)
      refine ⟨hs.inv hhanded (Or.inr hended) fun j => (hiff j).mp, ?_⟩
      rw [hs.noneLost_iff hiff hhanded rfl, Inv.noneLost_iff hs hcur]
      exact (and_iff_left (Or.inr ⟨rfl, r, dead, htask⟩)).symm

/-- **One step** keeps the invariant, and loses no record exactly under the condition. -/
theorem inv_iff_of_step (h : Inv log s) {a : Signal} (hstep : step log s a = some s') :
    Inv log s' ∧ (NoneLost log s' ↔ NoneLost log s ∧ Safe s a) := by
  cases stepped_of_step hstep with
  | fetched htask hr hwent =>
    have hs := h.holds_next htask hr
    have hsafe : Safe s .fetch := fun r hex => nomatch hex
    refine ⟨hwent.inv hs, ?_⟩
    rw [hwent.noneLost_iff hs, noneLost_iff_of_current (by rw [htask]; rfl)]
    exact and_congr_right fun _ => iff_of_true not_false hsafe
  | worked hcur hsafe hwent =>
    obtain ⟨i, hs⟩ := h.holds hcur
    refine ⟨hwent.inv hs, ?_⟩
    rw [hwent.noneLost_iff hs, Inv.noneLost_iff hs hcur, hsafe]
  | sent raises htask => exact inv_iff_of_send h htask raises
  | cancelled landed hstop => exact inv_iff_of_cancel h hstop landed
  | stopped hstop =>
    have htask : s.task = .ended := h.ended.mpr (by rw [hstop]; nofun)
    exact ⟨⟨h.current, h.kept, iff_of_true htask nofun, fun _ => rfl⟩,
      (and_iff_left fun r hex => nomatch hex).symm⟩
  | finished hstop =>
    have htask : s.task = .ended := h.ended.mpr (by rw [hstop]; nofun)
    exact ⟨⟨h.current, h.kept, iff_of_true htask nofun, fun _ => h.committed (Or.inl hstop)⟩,
      (and_iff_left fun r hex => nomatch hex).symm⟩

theorem Inv.start (log : List Record) (db : Database Table) : Inv log (.start db) := by
  refine ⟨nofun, ?_, iff_of_false nofun (not_not_intro rfl), ?_⟩
  · rintro i (hi | ⟨r, dead, -, hi, -⟩)
    · exact absurd hi List.not_mem_nil
    · exact absurd hi List.not_mem_nil
  · rintro (hstop | hstop)
    · exact absurd hstop nofun
    · exact absurd hstop nofun

theorem NoneLost.start (log : List Record) (db : Database Table) : NoneLost log (.start db) :=
  fun i hi => absurd hi (Nat.not_lt_zero i)

end Run

/-- **The stop loses no record** exactly if it cancels the task between two records or in a
publication that is stored, and each record whose attempts have all failed is published. -/
theorem none_lost_iff {log : List Record} {db : Database Table} {schedule : List Signal} {s : State}
    (hrun : run (step log) (.start db) schedule = some s) (hstop : s.stop = .finished) :
    (∀ i < s.committed, Kept log s i) ↔ Guarded (step log) Safe (.start db) schedule := by
  have hreachable : Reachable (step log) (· = .start db) s := reachable_of_run rfl hrun
  have hinv : Inv log s := by
    refine hreachable.invariant ?_ fun _ _ _ h hstep => (inv_iff_of_step h hstep).1
    rintro s rfl
    exact .start log db
  have hcur : s.task.current = none := by
    rw [hinv.ended.mpr (by rw [hstop]; nofun)]
    rfl
  rw [hinv.committed (Or.inr hstop), ← noneLost_iff_of_current hcur,
    end_iff_guarded (fun _ _ _ h hstep => (inv_iff_of_step h hstep).1)
      (fun _ _ _ h hstep => (inv_iff_of_step h hstep).2) (.start log db) hrun]
  exact and_iff_right (.start log db)

/-! ### A record that is not interrupted -/

theorem proceed_task (s : State) (r : Record) (n : ℕ) (sc : Script) (t : Task) :
    { s with task := t }.proceed r n sc = s.proceed r n sc := by
  have hfail : { s with task := t }.fail r n = s.fail r n := by
    cases n with
    | zero | succ n => rfl
  cases sc with
  | done | write stmt rest => rfl
  | fails => exact hfail

/-- An attempt, under any faults. -/
theorem run_script (log : List Record) (r : Record) (n : ℕ) (sc : Script) {s : State} {u : Store}
    (hdb : u.db = s.db) : ∃ schedule, run (step log) (s.proceed r n sc) schedule =
      some (if (sc.run u).1 then { s with db := (sc.run u).2.db }.proceed r n .done
        else { s with db := (sc.run u).2.db }.fail r n) := by
  induction sc generalizing s u with
  | done | fails => exact ⟨[], by rw [Script.run, hdb]; rfl⟩
  | write stmt rest ih =>
    let t : State := { s with task := .execute r n stmt rest }
    have hfail (db : Database Table) :
        { t with db := db }.fail r n = { s with db := db }.fail r n :=
      proceed_task { s with db := db } r n .fails t.task
    by_cases hfault : ∃ faults, u.faults = true :: faults
    · obtain ⟨faults, hfault⟩ := hfault
      rw [Script.run_of_fault stmt rest hfault]
      exact ⟨[.execute true], congrArg some ((hfail s.db).trans (by rw [hdb]; rfl))⟩
    · have hfault : ∀ faults, u.faults ≠ true :: faults := by simpa using hfault
      cases hstmt : stmt.accepted schema with
      | false =>
        rw [Script.run_of_not_accepted hstmt rest hfault]
        have hexecuted : t.executed r n stmt rest false = t.fail r n := by
          simp only [State.executed, Database.execute_eq_none hstmt]
        exact ⟨[.execute false], congrArg some (hexecuted.trans ((hfail s.db).trans (by
          rw [hdb]; rfl)))⟩
      | true =>
        rw [Script.run_of_accepted hstmt rest hfault, hdb]
        obtain ⟨schedule, hrun⟩ := ih (s := { s with db := s.db.apply schema stmt })
          (u := { u with db := s.db.apply schema stmt, faults := u.faults.tail }) rfl
        have hexecuted : t.executed r n stmt rest false =
            { s with db := s.db.apply schema stmt }.proceed r n rest := by
          simp only [State.executed, t, Database.execute_eq_apply hstmt]
          exact proceed_task { s with db := s.db.apply schema stmt } r n rest _
        refine ⟨.execute false :: schedule, ?_⟩
        rw [← hexecuted] at hrun
        exact hrun

theorem run_sendToDlq (r : Record) (u : Store) : ((sendToDlq r.payload).run u).2 =
    { u with deadLetters := u.deadLetters ++ r.deadLetter.toList } := by
  rw [sendToDlq]
  split
  · next key value hkey hvalue =>
    have hdead : r.deadLetter = some ⟨key, r.payload, MAX_RETRIES⟩ := by
      rw [Record.deadLetter, hkey, hvalue]
    rw [hdead]
    rfl
  · next hnot =>
    have hdead : r.deadLetter = none := by
      rw [Record.deadLetter]
      split
      · next key value hkey hvalue => exact absurd hvalue (hnot key value hkey)
      · rfl
    rw [hdead, Option.toList_none, List.append_nil]
    rfl

/-- An attempt of the handler. -/
theorem run_attempt (log : List Record) {r : Record} (h : Follows (r.handler r.payload) r.script)
    (n : ℕ) {s : State} {u : Store} (hdb : u.db = s.db) : ∃ schedule res u',
      (r.handler r.payload).run u = (res, u') ∧ u'.deadLetters = u.deadLetters ∧
      run (step log) (s.proceed r n r.script) schedule =
        some (if res.isOk then { s with db := u'.db }.proceed r n .done
          else { s with db := u'.db }.fail r n) := by
  obtain ⟨schedule, hrun⟩ := run_script log r n r.script hdb
  obtain ⟨-, -, -, hletters, -⟩ := run_handler_cases h u
  rw [← h u] at hrun
  exact ⟨schedule, _, _, rfl, hletters, hrun⟩

/-- The attempts that are left, under any faults. -/
theorem run_attempts (log : List Record) {r : Record}
    (h : Follows (r.handler r.payload) r.script) (n : ℕ) {s : State} {u : Store}
    (hdb : u.db = s.db) : ∃ schedule t dead,
      run (step log) (s.proceed r n r.script) schedule = some t ∧ t.task = .record ∧
      t.handed = s.handed ∧ t.db = ((attempt r.handler r.payload (n + 1)).run u).2.db ∧
      ((attempt r.handler r.payload (n + 1)).run u).2.deadLetters = u.deadLetters ++ dead ∧
      t.deadLetters = s.deadLetters ++ dead.map fun d => (s.handed - 1, d) := by
  induction n generalizing s u with
  | zero =>
    obtain ⟨schedule, res, u', hu, hletters, hrun⟩ := run_attempt log h 0 hdb
    cases res with
    | ok a =>
      rw [run_attempt_of_ok hu]
      exact ⟨schedule, { s with db := u'.db }.proceed r 0 .done, [], hrun, rfl, rfl, rfl,
        hletters.trans (List.append_nil _).symm, (List.append_nil _).symm⟩
    | error e =>
      rw [run_attempt_of_error hu, attempt, run_sendToDlq, hletters]
      have hrun : run (step log) (s.proceed r 0 r.script) schedule =
        some ({ s with db := u'.db }.fail r 0) := hrun
      cases hdead : r.deadLetter with
      | none =>
        rw [State.fail, hdead] at hrun
        exact ⟨schedule, _, [], hrun, rfl, rfl, rfl, rfl, (List.append_nil _).symm⟩
      | some dead =>
        rw [State.fail, hdead] at hrun
        refine ⟨schedule ++ [.send false],
          { s with
            db := u'.db
            task := .record
            deadLetters := s.deadLetters ++ [(s.handed - 1, dead)] },
          [dead], ?_, rfl, rfl, rfl, rfl, rfl⟩
        rw [run_append, hrun]
        rfl
  | succ n ih =>
    obtain ⟨schedule, res, u', hu, hletters, hrun⟩ := run_attempt log h (n + 1) hdb
    cases res with
    | ok a =>
      rw [run_attempt_of_ok hu]
      exact ⟨schedule, { s with db := u'.db }.proceed r (n + 1) .done, [], hrun, rfl, rfl, rfl,
        hletters.trans (List.append_nil _).symm, (List.append_nil _).symm⟩
    | error e =>
      rw [run_attempt_of_error hu, ← hletters]
      obtain ⟨schedule', t, dead, hrun', ht⟩ := ih (s := { s with db := u'.db }) (u := u') rfl
      refine ⟨schedule ++ .wake :: schedule', t, dead, ?_, ht⟩
      rw [run_append, hrun]
      rw [← proceed_task { s with db := u'.db } r n r.script (.sleep r n)] at hrun'
      exact hrun'

/-- **A record that is not interrupted** is consumed as the worker consumes it. -/
theorem record_refined {log : List Record} {s : State} {r : Record} (htask : s.task = .record)
    (hr : log[s.handed]? = some r) {u : Store} (hdb : u.db = s.db) : ∃ schedule t dead,
      run (step log) s (.fetch :: schedule) = some t ∧ t.task = .record ∧
      t.handed = s.handed + 1 ∧ t.db = ((consume r.value).run u).2.db ∧
      ((consume r.value).run u).2.deadLetters = u.deadLetters ++ dead ∧
      t.deadLetters = s.deadLetters ++ dead.map fun d => (s.handed, d) := by
  have hconsume : consume r.value = attempt r.handler r.payload (MAX_RETRIES - 1 + 1) := by
    simp only [consume, r.decoded, r.known]
    rfl
  have hfollows : Follows (r.handler r.payload) r.script := by
    obtain ⟨-, hnot⟩ | ⟨handler, sc, hhandler, hsc, hfollows⟩ :=
      WritePath.recordScript_cases r.decoded
    · exact absurd r.known (hnot r.handler)
    · obtain rfl := Option.some.inj (Except.ok.inj (r.known.symm.trans hhandler))
      rwa [Record.script, hsc]
  obtain ⟨schedule, t, dead, hrun, ht⟩ := run_attempts log hfollows (MAX_RETRIES - 1)
    (s := { s with handed := s.handed + 1 }) hdb
  refine ⟨schedule, t, dead, ?_, hconsume ▸ ht⟩
  have hstep : step log s .fetch =
      some ({ s with handed := s.handed + 1 }.proceed r (MAX_RETRIES - 1) r.script) := by
    simp [step, htask, hr]
  rw [run, hstep]
  exact hrun

/-- A record of `chat_end`. -/
def ended : Record where
  value := .obj [("_persist_type", .str "chat_end"), ("conversation_id", .str "c"),
    ("timestamp", .int 1748275200)]
  payload := ([⟨"timestamp", .int 1748275200⟩, ⟨"conversation_id", .str "c"⟩,
    ⟨"_persist_type", .str "chat_end"⟩] : List (Σ _ : String, Json)).toAList
  handler := persistChatEnd
  decoded := rfl
  known := rfl

theorem none_lost_iff_ended :
    ∃ s, run (step [ended]) (.start .empty)
        [.fetch, .execute false, .cancel false, .stopConsumer, .stopProducer] = some s ∧
      s.stop = .finished ∧ ((∀ i < s.committed, Kept [ended] s i) ↔
        Guarded (step [ended]) Safe (.start .empty)
          [.fetch, .execute false, .cancel false, .stopConsumer, .stopProducer]) :=
  ⟨_, rfl, rfl, none_lost_iff rfl rfl⟩

/-- **The stop loses a record**: it cancels the worker in its only statement. -/
theorem not_kept_of_stop : ∃ (log : List Record) (schedule : List Signal) (s : State),
    run (step log) (.start .empty) schedule = some s ∧ s.stop = .finished ∧
      ¬∀ i < s.committed, Kept log s i := by
  refine ⟨[ended], [.fetch, .cancel false, .stopConsumer, .stopProducer], _, rfl, rfl, fun h => ?_⟩
  obtain hmem | ⟨r, dead, -, hmem, -⟩ := h 0 (by decide)
  · exact absurd hmem List.not_mem_nil
  · exact absurd hmem List.not_mem_nil

end PersistenceStop

end TitanChat
