import TitanChat.ConversationRow
import TitanChat.RecordFit

/-!
# What the worker will make of a status

A chat that starts and an assignment make a conversation `active` on the hot path; a chat that ends
makes it `ended` through `chat-persist`, and the worker may lag behind. Left alone the worker comes
to an end of its records, and the status that it will then have left can be foretold from the
records alone: `ended` if one of them ends the conversation, else what it is.

## Main definitions

* `statusOf`, `Activates`, `Ends`, `LeavesStatus`: the column and what a statement does to it
* `Script.Closes`: a script that ends the conversation
* `Pending`, `Forecast`: a record or the worker is about to end it; the status that will be
* `workerStep`, `Drained`: the worker alone, and its end

## Main results

* `closes_or_all`: the script of a record ends the conversation or leaves its status alone
* `forecast_workerStep`: the worker keeps the forecast
* `settles_iff_forecast`: the worker comes to an end, and to the forecast
-/

namespace TitanChat

open WideColumn Handlers Persistence DateTime

/-! ### The column -/

/-- `conversations.status`. -/
def statusOf (db : Database Table) (c : String) : Option Cell :=
  (conversationRow db c).bind (·.lookup "status")

/-- The statement makes the conversation active. -/
def Activates (c : String) (stmt : Statement Table) : Prop :=
  ∀ db : Database Table, statusOf (db.apply schema stmt) c = some (.text "active")

/-- The statement ends the conversation. -/
def Ends (c : String) (stmt : Statement Table) : Prop :=
  ∀ db : Database Table, statusOf (db.apply schema stmt) c = some (.text "ended")

def LeavesStatus (c : String) (stmt : Statement Table) : Prop :=
  ∀ db : Database Table, statusOf (db.apply schema stmt) c = statusOf db c

section Status

variable {c : String} {stmt : Statement Table}

theorem statusOf_empty (c : String) : statusOf .empty c = none := rfl

theorem statusOf_of_writesRow (h : WritesRow c stmt) (db : Database Table) :
    statusOf (db.apply schema stmt) c =
      (stmt.write ((conversationRow db c).getD ∅)).lookup "status" :=
  lookup_of_writesRow h db "status"

theorem leavesStatus_of_not_writesRow (h : ¬WritesRow c stmt) : LeavesStatus c stmt := by
  intro db
  rw [statusOf, statusOf, conversationRow_of_not_writesRow h]

/-- What sets the status is accepted. -/
theorem accepted_of_sets {status : String}
    (h : statusOf (Database.apply schema .empty stmt) c = some (.text status)) :
    stmt.accepted schema := by
  by_contra hnot
  rw [Database.apply_of_not_accepted (by simpa using hnot), statusOf_empty] at h
  exact absurd h (by simp)

theorem LeavesStatus.not_activates (h : LeavesStatus c stmt) : ¬Activates c stmt := fun h' =>
  absurd ((h .empty).symm.trans (h' .empty)) (by simp [statusOf_empty])

theorem LeavesStatus.not_ends (h : LeavesStatus c stmt) : ¬Ends c stmt := fun h' =>
  absurd ((h .empty).symm.trans (h' .empty)) (by simp [statusOf_empty])

theorem activates_insertConversation {env : Env} {event : ChatStartEvent} (hc : c ≠ "")
    (h : event.conversation_id = c) : Activates c (insertConversation env event) := fun db =>
  (statusOf_of_writesRow (writesRow_insertConversation.mpr ⟨hc, h⟩) db).trans
    (lookup_write_insertConversation env event).2

theorem activates_assignConversation {a : String} (hc : c ≠ "") :
    Activates c (assignConversation c a) := fun db =>
  (statusOf_of_writesRow (writesRow_assignConversation.mpr ⟨hc, rfl⟩) db).trans
    (lookup_write_assignConversation c a).2

theorem ends_endConversation {now : DateTime} (hc : c ≠ "") :
    Ends c (endConversation now (.text c)) := by
  have hw : WritesRow c (endConversation now (.text c)) :=
    ⟨(accepted_endConversation now c).mpr hc, rfl, rfl⟩
  exact fun db => (statusOf_of_writesRow hw db).trans (lookup_write_endConversation now _).2

theorem leavesStatus_insertConversation {env : Env} {event : ChatStartEvent}
    (h : event.conversation_id ≠ c) : LeavesStatus c (insertConversation env event) :=
  leavesStatus_of_not_writesRow fun hw => h (writesRow_insertConversation.mp hw).2

theorem leavesStatus_assignConversation {d a : String} (h : d ≠ c) :
    LeavesStatus c (assignConversation d a) :=
  leavesStatus_of_not_writesRow fun hw => h (writesRow_assignConversation.mp hw).2

theorem leavesStatus_of_table (h : stmt.table ≠ .conversations) : LeavesStatus c stmt :=
  leavesStatus_of_not_writesRow fun hw => h hw.2.1

theorem leavesStatus_endConversation {now : DateTime} {d : Cell} (h : d ≠ .text c) :
    LeavesStatus c (endConversation now d) :=
  leavesStatus_of_not_writesRow fun hw => h (by
    have hbound := hw.2.2
    simpa [endConversation, Statement.bound] using hbound)

theorem leavesStatus_updatePreview (now : DateTime) (p d : Cell) :
    LeavesStatus c (updatePreview now p d) := by
  by_cases hw : WritesRow c (updatePreview now p d)
  · exact fun db => lookup_of_write_eq hw (lookup_write_updatePreview now p d).2
  · exact leavesStatus_of_not_writesRow hw

end Status

/-! ### The scripts -/

/-- The script ends the conversation, and does nothing else. -/
def Persistence.Script.Closes (c : String) (sc : Script) : Prop :=
  ∃ stmt, sc = .write stmt .done ∧ Ends c stmt

section Scripts

variable {c : String} {sc : Script}

theorem Script.not_closes_of_all (h : sc.All (LeavesStatus c)) : ¬sc.Closes c := by
  rintro ⟨stmt, rfl, hends⟩
  cases h with
  | write hstmt _ => exact hstmt.not_ends hends

/-- **The script of a record** ends the conversation or leaves its status alone. -/
theorem closes_or_all {v : Json} (hc : c ≠ "") (h : recordScript v = some sc) :
    sc.Closes c ∨ sc.All (LeavesStatus c) := by
  obtain ⟨payload, -, h⟩ := Option.bind_eq_some_iff.mp h
  split at h
  · next persist_type _ =>
    obtain ⟨sc, hsc, rfl⟩ := Option.map_eq_some_iff.mp h
    by_cases hend : persist_type = "chat_end"
    · subst hend
      obtain rfl := Option.some.inj hsc
      rw [chatEndScript]
      cases timestampOf payload with
      | none => exact Or.inr .fails
      | some now =>
        cases requiredCell payload "conversation_id" with
        | none => exact Or.inr .fails
        | some d =>
          by_cases hd : d = .text c
          · exact Or.inl ⟨_, rfl, hd ▸ ends_endConversation hc⟩
          · exact Or.inr (.write (leavesStatus_endConversation hd) .done)
    · exact Or.inr (all_script leavesStatus_updatePreview (fun h => absurd h hend)
        (fun _ => leavesStatus_of_table) hsc payload)
  · exact absurd h (by simp)

end Scripts

namespace WritePath

/-! ### The worker alone -/

/-- The script of the worker ends the conversation or leaves its status alone. -/
def WorkerShape (c : String) (s : WritePath) : Prop :=
  ∀ w, s.worker = some w →
    w.script.All (LeavesStatus c) ∧ w.rest.All (LeavesStatus c) ∨
      w.script.Closes c ∧ (w.rest = w.script ∨ w.rest = .done)

/-- A record or the worker is about to end the conversation. -/
def Pending (c : String) (s : WritePath) : Prop :=
  (∃ v ∈ s.records, ∃ sc, recordScript v = some sc ∧ sc.Closes c) ∨
    ∃ w, s.worker = some w ∧ w.rest.Closes c

/-- What the status will be once all records are consumed. -/
def Forecast (c : String) (s : WritePath) (status : Option Cell) : Prop :=
  Pending c s ∧ some (.text "ended") = status ∨ ¬Pending c s ∧ statusOf s.db c = status

/-- The worker takes the next record, or goes on with the one that it has. -/
inductive WorkerAction where
  | take
  | write

def workerStep (s : WritePath) : WorkerAction → Option WritePath
  | .take => step s (.take 0 false)
  | .write => step s .write

variable {c : String} {s s' : WritePath}

theorem forecast_congr (hpending : Pending c s' ↔ Pending c s)
    (hstatus : statusOf s'.db c = statusOf s.db c) {status : Option Cell} :
    Forecast c s' status ↔ Forecast c s status := by
  rw [Forecast, Forecast, hpending, hstatus]

/-- There is one forecast. -/
theorem Forecast.unique {x y : Option Cell} (hx : Forecast c s x) (hy : Forecast c s y) :
    x = y := by
  obtain ⟨hpending, rfl⟩ | ⟨hnot, rfl⟩ := hx
  · obtain ⟨-, rfl⟩ | ⟨hnot, -⟩ := hy
    · rfl
    · exact absurd hpending hnot
  · obtain ⟨hpending, -⟩ | ⟨-, rfl⟩ := hy
    · exact absurd hpending hnot
    · rfl

/-- A record on its way to the worker is as pending as before. -/
theorem take_cases (hs : step s (.take 0 false) = some s') : s.worker = none ∧
    ∃ v records, s.records = v :: records ∧ s' =
      { s with
        records := records
        worker := (recordScript v).map fun sc => ⟨sc, sc, MAX_RETRIES - 1⟩ } := by
  cases stepped_of_step hs with
  | @take _ _ v hidle hv =>
    obtain ⟨records, hrecords⟩ : ∃ records, s.records = v :: records := by
      cases hr : s.records with
      | nil => simp [hr] at hv
      | cons u records => exact ⟨records, by simpa [hr] using hv⟩
    exact ⟨hidle, v, records, hrecords, by simp [hrecords]⟩

theorem pending_take (hs : step s (.take 0 false) = some s') : Pending c s' ↔ Pending c s := by
  obtain ⟨hidle, v, records, hrecords, rfl⟩ := take_cases hs
  simp only [Pending, hrecords, hidle, List.exists_mem_cons_iff, Option.map_eq_some_iff]
  grind

/-- A worker without a part in the status. -/
theorem pending_congr_of_not_closes (hrecords : s'.records = s.records)
    (hno : ∀ w, s.worker = some w → ¬w.rest.Closes c)
    (hno' : ∀ w, s'.worker = some w → ¬w.rest.Closes c) : Pending c s' ↔ Pending c s := by
  rw [Pending, Pending, hrecords, or_iff_left, or_iff_left]
  · rintro ⟨w, hw, h⟩
    exact hno w hw h
  · rintro ⟨w, hw, h⟩
    exact hno' w hw h

theorem not_closes_done : ¬Script.done.Closes c := by
  rintro ⟨stmt, h, -⟩
  exact absurd h (by simp)

/-- **A script that leaves the status alone** leaves it alone. -/
theorem statusOf_work_of_all {w : Attempt} (hrest : w.rest.All (LeavesStatus c)) :
    statusOf (s.work w).db c = statusOf s.db c := by
  rw [work]
  split
  · rfl
  · rfl
  · next stmt rest hw =>
    split
    · rfl
    · next db hdb =>
      rw [hw] at hrest
      cases hrest with
      | write hleaves _ =>
        have hstatus := hleaves s.db
        rwa [Database.apply, hdb, Option.getD_some] at hstatus

/-- **A script that ends the conversation** does so in one step. -/
theorem work_of_closes {w : Attempt} (h : w.rest.Closes c) :
    ∃ db, statusOf db c = some (.text "ended") ∧
      s.work w = { s with db := db, worker := some { w with rest := .done } } := by
  obtain ⟨stmt, hrest, hends⟩ := h
  refine ⟨s.db.apply schema stmt, hends s.db, ?_⟩
  rw [work, hrest]
  simp only [Database.execute_eq_apply (accepted_of_sets (hends .empty))]

/-- **The worker keeps the forecast.** -/
theorem forecast_workerStep (hshape : WorkerShape c s) (hc : c ≠ "") {a : WorkerAction}
    (hs : workerStep s a = some s') : WorkerShape c s' ∧
      ∀ status, Forecast c s' status ↔ Forecast c s status := by
  cases a with
  | take =>
    refine ⟨?_, fun status => forecast_congr (pending_take hs) ?_⟩
    · obtain ⟨-, v, records, -, rfl⟩ := take_cases hs
      intro w hw
      obtain ⟨sc, hsc, rfl⟩ := Option.map_eq_some_iff.mp hw
      obtain hcloses | hall := closes_or_all hc hsc
      · exact Or.inr ⟨hcloses, Or.inl rfl⟩
      · exact Or.inl ⟨hall, hall⟩
    · obtain ⟨-, v, records, -, rfl⟩ := take_cases hs
      rfl
  | write =>
    obtain ⟨w, hw, rfl⟩ := Option.map_eq_some_iff.mp hs
    have hunique {P : Attempt → Prop} (h : P w) : ∀ w', s.worker = some w' → P w' := by
      intro w' hw'
      exact Option.some.inj (hw.symm.trans hw') ▸ h
    obtain ⟨hscript, hrest⟩ | ⟨hcloses, hrest | hrest⟩ := hshape w hw
    · have hpending : Pending c (s.work w) ↔ Pending c s :=
        pending_congr_of_not_closes (records_work s w)
          (hunique (Script.not_closes_of_all hrest))
          fun w' hw' => Script.not_closes_of_all (all_of_work hscript hrest hw').2
      exact ⟨fun w' hw' => Or.inl (all_of_work hscript hrest hw'),
        fun status => forecast_congr hpending (statusOf_work_of_all hrest)⟩
    · obtain ⟨db, hdb, hwork⟩ := work_of_closes (s := s) (hrest ▸ hcloses)
      rw [hwork]
      refine ⟨fun w' hw' => ?_, fun status => ?_⟩
      · obtain rfl := Option.some.inj hw'
        exact Or.inr ⟨hcloses, Or.inr rfl⟩
      · have hpending : Pending c s := Or.inr ⟨w, hw, hrest ▸ hcloses⟩
        simp only [Forecast, hpending, hdb, true_and, not_true_eq_false, false_and, or_false]
        tauto
    · have hwork : s.work w = { s with worker := none } := by rw [work, hrest]
      rw [hwork]
      have hpending : Pending c { s with worker := none } ↔ Pending c s :=
        pending_congr_of_not_closes rfl (hunique (hrest ▸ not_closes_done)) (by simp)
      exact ⟨fun w' hw' => absurd hw' (by simp), fun status => forecast_congr hpending rfl⟩

/-! ### The worker comes to an end -/

/-- All records are consumed. -/
def Drained (s : WritePath) : Prop := s.records = [] ∧ s.worker = none

/-- How many statements a script has. -/
def scriptSize : Script → ℕ
  | .done | .fails => 0
  | .write _ rest => scriptSize rest + 1

/-- The steps that an attempt and those after it may take. -/
def attemptCost (w : Attempt) : ℕ :=
  scriptSize w.rest + 1 + w.left * (scriptSize w.script + 1)

def recordCost (v : Json) : ℕ :=
  ((recordScript v).map fun sc => attemptCost ⟨sc, sc, MAX_RETRIES - 1⟩).getD 0 + 1

/-- What the worker has before it. -/
def load (s : WritePath) : ℕ := (s.records.map recordCost).sum + (s.worker.map attemptCost).getD 0

theorem retry_cost (w : Attempt) : (w.retry.map attemptCost).getD 0 < attemptCost w := by
  rw [Attempt.retry]
  split
  · simp [attemptCost]
  · next n hn =>
    have hmul := Nat.succ_mul n (scriptSize w.script + 1)
    simp only [attemptCost, hn, Option.map_some, Option.getD_some]
    omega

theorem load_work {w : Attempt} (hw : s.worker = some w) : load (s.work w) < load s := by
  have hretry := retry_cost w
  simp only [load, hw, Option.map_some, Option.getD_some]
  rw [work]
  split
  · simp [attemptCost]
  · simpa using hretry
  · next stmt rest hrest =>
    split
    · simpa using hretry
    · simp [attemptCost, hrest, scriptSize]

/-- **The worker has something to do** until all records are consumed. -/
theorem exists_workerStep (h : ¬Drained s) :
    ∃ a s', workerStep s a = some s' ∧ load s' < load s := by
  cases hw : s.worker with
  | some w => exact ⟨.write, s.work w, by simp [workerStep, step, hw], load_work hw⟩
  | none =>
    cases hr : s.records with
    | nil => exact absurd ⟨hr, hw⟩ h
    | cons v records =>
      refine ⟨.take, _, by simp [workerStep, step, hw, hr]; rfl, ?_⟩
      simp only [load, hw, hr, recordCost, List.map_cons, List.sum_cons, Option.map_none,
        Option.getD_none, Option.map_map, Function.comp_def]
      omega

/-- **The worker alone.** However it goes on, the status will be the forecast. -/
theorem settles_iff_forecast (hshape : WorkerShape c s) (hc : c ≠ "") {status : Option Cell} :
    (∀ s', Transition.Reachable workerStep (· = s) s' → Drained s' → statusOf s'.db c = status) ↔
      Forecast c s status := by
  have hall : ∀ s', Transition.Reachable workerStep (· = s) s' →
      WorkerShape c s' ∧ ∀ status, Forecast c s' status ↔ Forecast c s status := by
    intro s' hs'
    induction hs' with
    | start heq =>
      subst heq
      exact ⟨hshape, fun _ => Iff.rfl⟩
    | next _ hstep ih =>
      obtain ⟨hshape', hforecast⟩ := forecast_workerStep ih.1 hc hstep
      exact ⟨hshape', fun status => (hforecast status).trans (ih.2 status)⟩
  have hdrained : ∀ s', Drained s' → (Forecast c s' status ↔ statusOf s'.db c = status) := by
    rintro s' ⟨hrecords, hworker⟩
    simp [Forecast, Pending, hrecords, hworker]
  constructor
  · intro h
    have hstart : Transition.Reachable workerStep (· = s) s := .start rfl
    obtain ⟨s', hs', hdone⟩ := Transition.Reachable.exists_of_descent load
      (fun t ht hnot => by
        obtain ⟨a, t', hstep, hlt⟩ := exists_workerStep hnot
        exact ⟨t', ht.next hstep, hlt⟩) hstart
    exact ((hall s' hs').2 status).mp ((hdrained s' hdone).mpr (h s' hs' hdone))
  · exact fun h s' hs' hdone => (hdrained s' hdone).mp (((hall s' hs').2 status).mpr h)

end WritePath

end TitanChat
