import TitanChat.GatewayEndpoint
import TitanChat.HandlerOperations
import TitanChat.Internal.Transition
import TitanChat.PersistenceRetry

/-!
# The two paths to the database

Cassandra is written on two paths. The handlers execute statements while they handle an event, and
they publish records to `chat-persist`, from which the persistence worker executes more of them
later. Here the two run together: the frames of all sockets, the handlers with one statement or
record at a time, and the worker with one statement at a time. A handler may raise between any two
of its operations, and any statement of the worker may fail, with or without an effect.

Each Kafka key has one handler at a time. Across partitions the order of the records is free, and a
record may be delivered again.

## Main definitions

* `WritePath`, `WritePath.step`
* `WritePath.Stepped`: what a step can do
* `WritePath.executes`: the statement of a step
* `Event.status`: what a lifecycle event says about its conversation

## Main results

* `db_of_step`: the database changes by the statement of the step
* `deliver_refined`, `consume_refined`: what a handler and the worker do alone, the two paths can do
-/

namespace TitanChat

open WideColumn Handlers

/-! ### The state -/

/-- The status that a lifecycle event gives to its conversation. A transfer gives one only if an
agent was found. -/
def Handlers.Event.status (agent_id : Option String) : Event → Option String
  | .chatStart _ => some "active"
  | .transferToAgent _ => agent_id.map fun _ => "active"
  | .chatEnd _ => some "ended"
  | _ => none

/-- The script of a record, if the worker has a handler for it. -/
def Persistence.recordScript (value : Json) : Option Script :=
  value.dict?.bind fun payload =>
    match optional payload "_persist_type" (.str "") with
    | .str persist_type => (script persist_type).map fun sc => sc payload
    | _ => none

/-- A record that the worker is at. -/
structure Attempt where
  script : Persistence.Script
  /-- What is left of the current attempt. -/
  rest : Persistence.Script
  /-- How many attempts may follow it. -/
  left : ℕ

/-- The attempt has failed. -/
def Attempt.retry (w : Attempt) : Option Attempt :=
  match w.left with
  | 0 => none
  | n + 1 => some { w with rest := w.script, left := n }

/-- The tables, the records that are not consumed yet, the handlers and the worker. -/
structure WritePath extends Stored where
  /-- The operations that the handler of a key has before it. -/
  handlers : String → List Op
  worker : Option Attempt
  /-- What the last lifecycle event of a conversation has said. -/
  last : String → Option String

namespace WritePath

/-- Nothing is stored and nothing is going on. -/
def start : WritePath where
  db := .empty
  records := []
  handlers _ := []
  worker := none
  last _ := none

inductive Action where
  /-- A frame reaches its handler, with the agent that a transfer will find. -/
  | dispatch (f : Frame) (env : Env) (agent_id : Option String)
  /-- The next operation of a handler. -/
  | hot (key : String)
  /-- A handler raises. -/
  | raise (key : String)
  /-- The worker gets a record, which may be delivered again. -/
  | take (n : ℕ) (again : Bool)
  /-- The next statement of the worker. -/
  | write
  /-- The call that the worker is waiting for fails. -/
  | fail

/-- A handler is called: its operations are before it. -/
def dispatch (s : WritePath) (key : String) (env : Env) (agent_id : Option String) (e : Event) :
    WritePath :=
  { s with
    handlers := Function.update s.handlers key (e.ops env agent_id)
    last := match e.status agent_id with
      | some status => Function.update s.last e.conversation_id (some status)
      | none => s.last }

/-- The next operation of a handler, which raises if the operation does. -/
def perform (s : WritePath) (key : String) (op : Op) (ops : List Op) : WritePath :=
  match s.toStored.perform op with
  | some stored =>
    { s with toStored := stored, handlers := Function.update s.handlers key ops }
  | none => { s with handlers := Function.update s.handlers key [] }

/-- The next statement of the worker, or the end of an attempt. -/
def work (s : WritePath) (w : Attempt) : WritePath :=
  match w.rest with
  | .done => { s with worker := none }
  | .fails => { s with worker := w.retry }
  | .write stmt rest =>
    match s.db.execute schema stmt with
    | none => { s with worker := w.retry }
    | some db => { s with db := db, worker := some { w with rest := rest } }

def step (s : WritePath) : Action → Option WritePath
  | .dispatch f env agent_id =>
    if f.conversation_id = "" ∨ (s.handlers f.conversation_id).isEmpty = false then none
    else (f.event env.parsing).map (s.dispatch f.conversation_id env agent_id)
  | .hot key =>
    match s.handlers key with
    | [] => none
    | op :: ops => some (s.perform key op ops)
  | .raise key =>
    if (s.handlers key).isEmpty then none
    else some { s with handlers := Function.update s.handlers key [] }
  | .take n again =>
    if s.worker.isSome then none
    else s.records[n]?.map fun v =>
      { s with
        records := if again then s.records else s.records.eraseIdx n
        worker := (Persistence.recordScript v).map fun sc =>
          { script := sc, rest := sc, left := Persistence.MAX_RETRIES - 1 } }
  | .write => s.worker.map s.work
  | .fail => s.worker.map fun w => { s with worker := w.retry }

variable {s s' : WritePath}

/-! ### What a step can do -/

/-- The result of an operation. If it raises, nothing is stored. -/
theorem perform_execute (stored : Stored) (stmt : Statement Table) :
    (stored.perform (.execute stmt)).getD stored =
      { stored with db := stored.db.apply schema stmt } := by
  rw [Stored.perform, Database.apply]
  cases stored.db.execute schema stmt <;> rfl

theorem perform_publish (stored : Stored) (record : List (String × Json)) :
    (stored.perform (.publish record)).getD stored =
      { stored with records := stored.records ++ ((Json.obj record).transit).toList } := by
  rw [Stored.perform]
  cases (Json.obj record).transit with
  | none => simp
  | some v => rfl

/-- The steps, one constructor for each action. -/
inductive Stepped (s : WritePath) : Action → WritePath → Prop
  | dispatch {f : Frame} {env : Env} {agent_id : Option String} {e : Event}
      (hkey : f.conversation_id ≠ "") (hidle : s.handlers f.conversation_id = [])
      (he : f.event env.parsing = some e) :
      Stepped s (.dispatch f env agent_id) (s.dispatch f.conversation_id env agent_id e)
  | hot {key : String} {op : Op} {ops rest : List Op} {stored : Stored}
      (hops : s.handlers key = op :: ops)
      (hstored : stored = (s.toStored.perform op).getD s.toStored)
      (hrest : rest = if (s.toStored.perform op).isSome then ops else []) :
      Stepped s (.hot key)
        { s with toStored := stored, handlers := Function.update s.handlers key rest }
  | raise {key : String} (hbusy : s.handlers key ≠ []) :
      Stepped s (.raise key) { s with handlers := Function.update s.handlers key [] }
  | take {n : ℕ} {again : Bool} {v : Json} (hidle : s.worker = none)
      (hv : s.records[n]? = some v) :
      Stepped s (.take n again)
        { s with
          records := if again then s.records else s.records.eraseIdx n
          worker := (Persistence.recordScript v).map fun sc =>
            { script := sc, rest := sc, left := Persistence.MAX_RETRIES - 1 } }
  | write {w : Attempt} (hw : s.worker = some w) : Stepped s .write (s.work w)
  | fail {w : Attempt} (hw : s.worker = some w) :
      Stepped s .fail { s with worker := w.retry }

/-- **Inversion of a step.** -/
theorem stepped_of_step {a : Action} (hs : step s a = some s') : Stepped s a s' := by
  cases a with
  | dispatch f env agent_id =>
    simp only [step, Option.ite_none_left_eq_some, not_or] at hs
    obtain ⟨⟨hkey, hidle⟩, hs⟩ := hs
    obtain ⟨e, he, rfl⟩ := Option.map_eq_some_iff.mp hs
    exact .dispatch hkey (by simpa using hidle) he
  | hot key =>
    simp only [step] at hs
    split at hs
    · exact absurd hs (by simp)
    · next op ops hops =>
      obtain rfl := Option.some.inj hs
      rw [perform]
      cases hperform : s.toStored.perform op with
      | none => exact .hot hops (by simp [hperform]) (by simp [hperform])
      | some stored => exact .hot hops (by simp [hperform]) (by simp [hperform])
  | raise key =>
    simp only [step, Option.ite_none_left_eq_some] at hs
    obtain rfl := Option.some.inj hs.2
    exact .raise (by simpa using hs.1)
  | take n again =>
    simp only [step, Option.ite_none_left_eq_some] at hs
    obtain ⟨v, hv, rfl⟩ := Option.map_eq_some_iff.mp hs.2
    exact .take (by simpa using hs.1) hv
  | write =>
    obtain ⟨w, hw, rfl⟩ := Option.map_eq_some_iff.mp hs
    exact .write hw
  | fail =>
    obtain ⟨w, hw, rfl⟩ := Option.map_eq_some_iff.mp hs
    exact .fail hw

/-- What is left of a handler is what it had. -/
theorem mem_of_mem_rest {o : Op} {ops rest : List Op} {b : Bool}
    (hrest : rest = if b then ops else []) (ho : o ∈ rest) : o ∈ ops := by
  subst hrest
  split at ho
  · exact ho
  · exact absurd ho (by simp)

/-- The worker changes neither the handlers nor the records. -/
@[simp] theorem handlers_work (s : WritePath) (w : Attempt) : (s.work w).handlers = s.handlers := by
  rw [work]
  split
  · rfl
  · rfl
  · split <;> rfl

@[simp] theorem records_work (s : WritePath) (w : Attempt) : (s.work w).records = s.records := by
  rw [work]
  split
  · rfl
  · rfl
  · split <;> rfl

@[simp] theorem last_work (s : WritePath) (w : Attempt) : (s.work w).last = s.last := by
  rw [work]
  split
  · rfl
  · rfl
  · split <;> rfl

/-! ### The statement of a step -/

/-- The statement that a step executes. -/
def executes (s : WritePath) : Action → Option (Statement Table)
  | .hot key =>
    match s.handlers key with
    | .execute stmt :: _ => some stmt
    | _ => none
  | .write =>
    match s.worker with
    | some ⟨_, .write stmt _, _⟩ => some stmt
    | _ => none
  | _ => none

/-- **The database changes by the statement of the step**, if that is accepted. -/
theorem db_of_step {a : Action} (hs : step s a = some s') :
    s'.db = (s.executes a).elim s.db (s.db.apply schema) := by
  cases stepped_of_step hs with
  | @hot key op ops rest stored hops hstored hrest =>
    rw [executes, hops]
    cases op with
    | publish record => rw [hstored, perform_publish]; rfl
    | execute stmt => rw [hstored, perform_execute]; rfl
  | write hw =>
    rename_i w
    obtain ⟨script, rest, left⟩ := w
    rw [executes, hw, work]
    cases rest with
    | done | fails => rfl
    | write stmt rest =>
      simp only [Option.elim_some, Database.apply]
      cases s.db.execute schema stmt <;> rfl
  | dispatch | raise | take | fail => rfl

/-- A step without a statement changes no table. -/
theorem db_of_executes_eq_none {a : Action} (hs : step s a = some s')
    (ha : s.executes a = none) : s'.db = s.db := by
  rw [db_of_step hs, ha, Option.elim_none]

theorem db_of_executes {a : Action} (hs : step s a = some s') {stmt : Statement Table}
    (ha : s.executes a = some stmt) : s'.db = s.db.apply schema stmt := by
  rw [db_of_step hs, ha, Option.elim_some]

/-! ### What a handler does alone -/

/-- A handler performs some of its operations and raises, if any are left. -/
theorem run_hot {key : String} {ps ops : List Op} (hps : ps <+: ops) {s : WritePath}
    (hops : s.handlers key = ops) {stored : Stored}
    (hstored : ps.foldlM Stored.perform s.toStored = some stored) :
    ∃ schedule, Transition.run step s schedule =
      some { s with toStored := stored, handlers := Function.update s.handlers key [] } := by
  induction ps generalizing s ops with
  | nil =>
    obtain rfl : s.toStored = stored := by simpa using hstored
    cases ops with
    | nil => exact ⟨[], by rw [← hops, Function.update_eq_self]; rfl⟩
    | cons op ops => exact ⟨[.raise key], by simp [Transition.run, step, hops]⟩
  | cons p ps ih =>
    obtain ⟨ops, rfl⟩ : ∃ rest, ops = p :: rest := by
      obtain ⟨rest, rfl⟩ := hps
      exact ⟨ps ++ rest, rfl⟩
    rw [List.foldlM_cons, Option.bind_eq_bind] at hstored
    obtain ⟨next, hnext, hstored⟩ := Option.bind_eq_some_iff.mp hstored
    let t : WritePath :=
      { s with toStored := next, handlers := Function.update s.handlers key ops }
    have ht : t.handlers key = ops := Function.update_self ..
    obtain ⟨schedule, hrun⟩ := ih (List.cons_prefix_cons.mp hps).2 ht hstored
    refine ⟨.hot key :: schedule, ?_⟩
    have hstep : step s (.hot key) = some t := by simp [step, hops, perform, hnext, t]
    rw [Transition.run, hstep, Option.bind_some, hrun]
    simp [t]

/-- **A handler that runs alone**: the two paths can do the same. -/
theorem deliver_refined {f : Frame} {env : Env} {e : Event} (hc : f.conversation_id ≠ "")
    (he : f.event env.parsing = some e) {s : WritePath}
    (hidle : s.handlers f.conversation_id = []) {w : World} (hw : stored w = s.toStored) :
    ∃ agent_id schedule, Transition.run step s (.dispatch f env agent_id :: schedule) =
      some { s with
        toStored := stored ((e.on env f.conversation_id).run w).2
        last := (s.dispatch f.conversation_id env agent_id e).last } := by
  obtain ⟨agent_id, ps, hps, hfold⟩ :
      ∃ agent_id ps, ps <+: e.ops env agent_id ∧
        ps.foldlM Stored.perform (stored w) =
          some (stored ((e.on env f.conversation_id).run w).2) := performs_on e w
  have hdispatch : step s (.dispatch f env agent_id) =
      some (s.dispatch f.conversation_id env agent_id e) := by
    simp [step, hc, hidle, he]
  have hops : (s.dispatch f.conversation_id env agent_id e).handlers f.conversation_id =
      e.ops env agent_id := Function.update_self ..
  obtain ⟨schedule, hrun⟩ := run_hot hps hops (hw ▸ hfold)
  have hsame : Function.update (s.dispatch f.conversation_id env agent_id e).handlers
      f.conversation_id [] = s.handlers := by
    simp only [dispatch, Function.update_idem]
    rw [← hidle, Function.update_eq_self]
  refine ⟨agent_id, schedule, ?_⟩
  rw [Transition.run, hdispatch, Option.bind_some, hrun, hsame]
  rfl

/-! ### What the worker does alone -/

/-- An attempt, under any faults. -/
theorem run_script (sc : Persistence.Script) {s : WritePath} {w : Attempt}
    (hw : s.worker = some { w with rest := sc }) {u : Persistence.Store} (hdb : u.db = s.db) :
    ∃ schedule, Transition.run step s schedule =
      some { s with
        db := (sc.run u).2.db
        worker := if (sc.run u).1 then none else w.retry } := by
  induction sc generalizing s u with
  | done => exact ⟨[.write], by simp [Transition.run, step, hw, work, Persistence.Script.run, hdb]⟩
  | fails =>
    exact ⟨[.write], by
      simp [Transition.run, step, hw, work, Persistence.Script.run, hdb, Attempt.retry]⟩
  | write stmt rest ih =>
    by_cases hfault : ∃ faults, u.faults = true :: faults
    · obtain ⟨faults, hfault⟩ := hfault
      rw [Persistence.Script.run_of_fault stmt rest hfault]
      exact ⟨[.fail], by simp [Transition.run, step, hw, hdb, Attempt.retry]⟩
    · have hfault : ∀ faults, u.faults ≠ true :: faults := by simpa using hfault
      cases hstmt : stmt.accepted schema with
      | false =>
        rw [Persistence.Script.run_of_not_accepted hstmt rest hfault]
        exact ⟨[.write], by
          simp [Transition.run, step, hw, work, hdb, Database.execute_eq_none hstmt,
            Attempt.retry]⟩
      | true =>
        rw [Persistence.Script.run_of_accepted hstmt rest hfault, hdb]
        let t : WritePath :=
          { s with db := s.db.apply schema stmt, worker := some { w with rest := rest } }
        have hwrite : step s .write = some t := by
          simp [step, hw, work, Database.execute_eq_apply hstmt, t]
        let u' : Persistence.Store :=
          { u with db := s.db.apply schema stmt, faults := u.faults.tail }
        obtain ⟨schedule, hrun⟩ := ih (s := t) (u := u') rfl rfl
        refine ⟨.write :: schedule, ?_⟩
        rw [Transition.run, hwrite]
        exact hrun

section Worker

open Persistence

variable {handler : Dict Json → Step Unit} {payload : Dict Json} {sc : Script}

theorem db_sendToDlq (u : Store) : ((sendToDlq payload).run u).2.db = u.db := by
  rw [sendToDlq]
  split <;> rfl

/-- All attempts, under any faults. -/
theorem run_attempts (h : Follows (handler payload) sc) (n : ℕ) {s : WritePath}
    (hw : s.worker = some ⟨sc, sc, n⟩) {u : Store} (hdb : u.db = s.db) :
    ∃ schedule, Transition.run step s schedule =
      some { s with db := ((attempt handler payload (n + 1)).run u).2.db, worker := none } := by
  induction n generalizing s u with
  | zero =>
    obtain ⟨schedule, hrun⟩ := run_script sc (w := ⟨sc, sc, 0⟩) hw hdb
    refine ⟨schedule, hrun.trans ?_⟩
    rw [← h u]
    rcases hru : (handler payload).run u with ⟨r, u'⟩
    cases r with
    | ok a => rw [run_attempt_of_ok hru]; rfl
    | error e => rw [run_attempt_of_error hru, attempt, db_sendToDlq]; rfl
  | succ n ih =>
    obtain ⟨schedule, hrun⟩ := run_script sc (w := ⟨sc, sc, n + 1⟩) hw hdb
    rw [← h u] at hrun
    rcases hru : (handler payload).run u with ⟨r, u'⟩
    rw [hru] at hrun
    cases r with
    | ok a => exact ⟨schedule, by rw [run_attempt_of_ok hru]; exact hrun⟩
    | error e =>
      let t : WritePath := { s with db := u'.db, worker := some ⟨sc, sc, n⟩ }
      obtain ⟨schedule', hrun'⟩ := ih (s := t) (u := u') rfl rfl
      refine ⟨schedule ++ schedule', ?_⟩
      rw [run_attempt_of_error hru, Transition.run_append, hrun]
      exact hrun'

theorem script_eq_none {persist_type : String} (h : persistHandlers persist_type = none) :
    script persist_type = none := by
  rw [persistHandlers.eq_def] at h
  split at h
  case h_6 h₁ h₂ h₃ h₄ h₅ => exact script.eq_6 _ h₁ h₂ h₃ h₄ h₅
  all_goals exact absurd h (by simp)

/-- The worker has a script for a record exactly if it has a handler, which follows it. -/
theorem recordScript_cases {v : Json} (hpayload : v.dict? = some payload) :
    (recordScript v = none ∧ ∀ handler, recordHandler payload ≠ .ok (some handler)) ∨
      ∃ handler sc, recordHandler payload = .ok (some handler) ∧ recordScript v = some sc ∧
        Follows (handler payload) sc := by
  simp only [recordScript, hpayload, Option.bind_some, recordHandler]
  cases optional payload "_persist_type" (.str "") with
  | str persist_type =>
    cases hhandler : persistHandlers persist_type with
    | none => exact Or.inl ⟨by simp [script_eq_none hhandler], by simp [hhandler]⟩
    | some handler =>
      obtain ⟨sc, hsc, hfollows⟩ := follows_script hhandler
      exact Or.inr ⟨handler, sc payload, by simp [hhandler], by simp [hsc], hfollows payload⟩
  | _ =>
    refine Or.inl ⟨rfl, fun handler => ?_⟩
    dsimp only
    split <;> simp

/-- **The worker alone**: the two paths can do the same with a record. -/
theorem consume_refined {s : WritePath} {n : ℕ} {v : Json} (hv : s.records[n]? = some v)
    (hidle : s.worker = none) {u : Store} (hdb : u.db = s.db) :
    ∃ schedule, Transition.run step s (.take n false :: schedule) =
      some { s with db := ((consume v).run u).2.db, records := s.records.eraseIdx n } := by
  let t : WritePath :=
    { s with
      records := s.records.eraseIdx n
      worker := (recordScript v).map fun sc => ⟨sc, sc, MAX_RETRIES - 1⟩ }
  have htake : step s (.take n false) = some t := by
    simp [step, hidle, hv, t]
  simp only [Transition.run, htake, Option.bind_some]
  -- without a script the record is skipped
  have hskip (hnone : recordScript v = none) (hrun : ((consume v).run u).2.db = u.db) :
      ∃ schedule, Transition.run step t schedule =
        some { s with db := ((consume v).run u).2.db, records := s.records.eraseIdx n } :=
    ⟨[], by simp [t, hnone, hrun, hdb, ← hidle]⟩
  cases hpayload : v.dict? with
  | none => exact hskip (by simp [recordScript, hpayload]) (by simp [consume, hpayload])
  | some payload =>
    obtain ⟨hnone, hhandler⟩ | ⟨handler, sc, hhandler, hsc, hfollows⟩ :=
      recordScript_cases hpayload
    · refine hskip hnone ?_
      simp only [consume, hpayload]
      split
      · rfl
      · rfl
      · next handler h => exact absurd h (hhandler handler)
    · obtain ⟨schedule, hrun⟩ := run_attempts hfollows (MAX_RETRIES - 1) (s := t) (u := u)
        (by simp [t, hsc]) hdb
      refine ⟨schedule, ?_⟩
      rw [hrun, ← hidle]
      simp only [consume, hpayload, hhandler]
      rfl

end Worker

end WritePath

end TitanChat
