import Mathlib.Data.List.Perm.Subperm
import TitanChat.HistoryOrder

/-!
# The history of assignments

`transfer_to_agent.handle` asks the router for an agent and publishes an assignment record, and the
worker inserts it into `agent_assignments`. The key of a row is the conversation and the time of the
assignment. The time is not `now`, which the handler computes and does not use, but the timestamp of
the event, in whole seconds. A conversation that is transferred twice in one second keeps one row:
the second agent takes the place of the first.

The transfers come from any states of the services and any environments: what happens in between,
and in which order Kafka delivers the records, is left open.

## Main definitions

* `Transfer`, `Transfer.Routed`: a call of the handler that has found an agent
* `PersistedAll`: some records, stored without failure
* `Complete`: the property
* `Recorded`: the rows after some assignments

## Main results

* `Transfer.Routed.record_eq`: what is published
* `Recorded.persisted`: the rows after any assignments
* `assignments_complete_iff`: the exact statement
-/

namespace TitanChat

open WideColumn Handlers

namespace Persistence

/-- A call of `transfer_to_agent.handle`: what it is called with and in, the agent that is found and
the record that is published. -/
structure Transfer where
  env : Env
  world : World
  key : String
  raw : Dict Json
  event : TransferToAgentEvent
  agent_id : String
  record : Message

/-- The routing succeeds, and the record is published. -/
structure Transfer.Routed (t : Transfer) : Prop where
  event : TransferToAgentEvent.parse t.env.parsing t.raw = some t.event
  agent_id : ((routeToAgent t.env t.event.conversation_id).run t.world.silent).1 =
    .ok (some t.agent_id)
  record : Publishes ((transferToAgent t.env t.key t.raw).run t.world.silent).2 t.record

/-- The records are stored one after another, each by the first attempt. -/
inductive PersistedAll : Database Table → List Message → Database Table → Prop
  | nil (db : Database Table) : PersistedAll db [] db
  | cons {db db' : Database Table} {m : Message} {ms : List Message}
      (first : Completed db m.payload)
      (rest : PersistedAll ((consume m.payload).run (healthy db)).2.db ms db') :
      PersistedAll db (m :: ms) db'

/-- The row of a transfer: its conversation and its agent. -/
def Transfer.HasRow (t : Transfer) (db : Database Table) (key : List Cell) : Prop :=
  ∃ row, db .agentAssignments key = some row ∧
    row.lookup "conversation_id" = some (.text t.event.conversation_id) ∧
    row.lookup "agent_id" = some (.text t.agent_id)

/-- **The history is complete**: the table has one row for each of the transfers, and no other. -/
def Complete (db : Database Table) (ts : List Transfer) : Prop :=
  ∃ keys : List (List Cell), keys.Nodup ∧
    (∀ key, (db .agentAssignments key).isSome ↔ key ∈ keys) ∧
    List.Forall₂ (fun t key => t.HasRow db key) ts keys

/-- Where a transfer is recorded. -/
def Transfer.rowKey (t : Transfer) : List Cell :=
  [.text t.event.conversation_id, .timestamp (t.event.timestamp * 1000)]

/-! ### One transfer -/

/-- The record of a transfer has its conversation, its timestamp and the agent that was found. -/
theorem Transfer.Routed.record_eq {t : Transfer} (h : t.Routed) :
    t.record = ⟨CHAT_PERSIST, t.key, .obj (assignmentRecord t.event t.agent_id)⟩ := by
  have hrecord := h.record
  rw [transferToAgent, validate_bind_of_some h.event] at hrecord
  have hsame : SameOutputs t.world.silent
      ((routeToAgent t.env t.event.conversation_id).run t.world.silent).2 :=
    keeps_routeToAgent (fun _ => ⟨rfl, rfl, rfl, rfl⟩) _
  have hroute : (routeToAgent t.env t.event.conversation_id).run t.world.silent =
      (.ok (some t.agent_id),
        ((routeToAgent t.env t.event.conversation_id).run t.world.silent).2) :=
    Prod.ext h.agent_id rfl
  rw [publishes_onTransferToAgent_iff hroute,
    publishes_recordAssignment_iff hsame.published] at hrecord
  exact hrecord.2.2

/-- What the worker does with a record that completes. -/
theorem Completed.run_consume {db : Database Table} {value : Json} (h : Completed db value) :
    ∃ payload handler, value.dict? = some payload ∧ recordHandler payload = .ok (some handler) ∧
      ((handler payload).run (healthy db)).1 = .ok () ∧
      (consume value).run (healthy db) = (handler payload).run (healthy db) := by
  obtain ⟨payload, handler, hpayload, hhandler, hok, hretry, -⟩ := h
  refine ⟨payload, handler, hpayload, hhandler, hok, ?_⟩
  simp only [consume, hpayload, hhandler]
  exact hretry

/-- The worker on an assignment. -/
theorem persistAssignment_assignmentRecord (event : TransferToAgentEvent) (agent_id : String) :
    persistAssignment (dictOf (assignmentRecord event agent_id)) =
      stamp event.timestamp >>= fun now => dbExecute
        (insertAssignment now (.text event.conversation_id) (.text agent_id)) := rfl

/-- An assignment that is stored is one `INSERT`. -/
theorem db_consume_assignment {db : Database Table} {event : TransferToAgentEvent}
    {agent_id : String} (h : Completed db (.obj (assignmentRecord event agent_id))) :
    ∃ now, DateTime.ofMicros (event.timestamp * 1000000) = some now ∧
      (insertAssignment now (.text event.conversation_id) (.text agent_id)).accepted schema ∧
      ((consume (.obj (assignmentRecord event agent_id))).run (healthy db)).2.db =
        db.apply schema (insertAssignment now (.text event.conversation_id) (.text agent_id)) := by
  obtain ⟨hrange, hnamed⟩ := (completed_assignment_iff event agent_id).mp h
  have hsome := DateTime.ofMicros_isSome event.timestamp
  rw [decide_eq_true hrange] at hsome
  obtain ⟨now, hnow⟩ := Option.isSome_iff_exists.mp hsome
  obtain ⟨payload, handler, hpayload, hhandler, -, hrun⟩ := h.run_consume
  obtain rfl := Option.some.inj hpayload
  obtain rfl : persistAssignment = handler := Option.some.inj (Except.ok.inj hhandler)
  have haccepted := (accepted_insertAssignment now event.conversation_id agent_id).mpr hnamed
  refine ⟨now, hnow, haccepted, ?_⟩
  have hbody : (persistAssignment (dictOf (assignmentRecord event agent_id))).run (healthy db) =
      (.ok (), healthy (db.apply schema
        (insertAssignment now (.text event.conversation_id) (.text agent_id)))) := by
    rw [persistAssignment_assignmentRecord, stamp, hnow, Effect.pure_bind,
      run_dbExecute_healthy haccepted]
  rw [hrun]
  exact congrArg (fun r => r.2.db) hbody

/-! ### The rows -/

/-- The rows are those of these transfers, each under its key. -/
structure Recorded (db : Database Table) (ts : List Transfer) : Prop where
  rows : ∀ key, (db .agentAssignments key).isSome ↔ ∃ t ∈ ts, t.rowKey = key
  row : ∀ key, (db .agentAssignments key).isSome → ∃ t ∈ ts, t.rowKey = key ∧ t.HasRow db key

section Row

variable {db : Database Table} {t : Transfer} {now : DateTime}

/-- The `INSERT` of a transfer. -/
def Transfer.insert (t : Transfer) (now : DateTime) : Statement Table :=
  insertAssignment now (.text t.event.conversation_id) (.text t.agent_id)

theorem Transfer.keyOf_insert
    (hnow : DateTime.ofMicros (t.event.timestamp * 1000000) = some now) :
    (schema .agentAssignments).keyOf (t.insert now).bound = some t.rowKey := by
  rw [rowKey, ← cell_of_ofMicros hnow]
  simp [Transfer.insert, insertAssignment, Statement.bound, TableSchema.keyOf, TableSchema.key,
    schema, List.lookup_cons, Option.filter_some]

/-- A transfer that is stored has its row, whatever was there. -/
theorem Transfer.hasRow_self (h : (t.insert now).accepted schema)
    (hnow : DateTime.ofMicros (t.event.timestamp * 1000000) = some now) :
    t.HasRow (db.apply schema (t.insert now)) t.rowKey := by
  refine ⟨_, Database.apply_self db h (Transfer.keyOf_insert hnow), ?_, ?_⟩ <;>
    simp [Transfer.insert, insertAssignment, Statement.write]

/-- **One transfer more.** -/
theorem Recorded.insert {ts : List Transfer} (hr : Recorded db ts)
    (h : (t.insert now).accepted schema)
    (hnow : DateTime.ofMicros (t.event.timestamp * 1000000) = some now) :
    Recorded (db.apply schema (t.insert now)) (ts ++ [t]) := by
  have hself : t.HasRow (db.apply schema (t.insert now)) t.rowKey := t.hasRow_self h hnow
  have hother : ∀ key, key ≠ t.rowKey →
      db.apply schema (t.insert now) .agentAssignments key = db .agentAssignments key :=
    fun key hne => Database.apply_of_key_ne h (Transfer.keyOf_insert hnow) hne
  constructor
  · intro key
    by_cases hkey : key = t.rowKey
    · subst hkey
      obtain ⟨row, hrow, -⟩ := hself
      exact iff_of_true (Option.isSome_of_eq_some hrow) ⟨t, by simp, rfl⟩
    · rw [hother key hkey, hr.rows key]
      constructor
      · rintro ⟨u, hu, heq⟩
        exact ⟨u, List.mem_append_left _ hu, heq⟩
      · rintro ⟨u, hu, heq⟩
        rcases List.mem_append.mp hu with hu | hu
        · exact ⟨u, hu, heq⟩
        · obtain rfl := List.mem_singleton.mp hu
          exact absurd heq.symm hkey
  · intro key hsome
    by_cases hkey : key = t.rowKey
    · exact ⟨t, by simp, hkey.symm, hkey ▸ hself⟩
    · rw [hother key hkey] at hsome
      obtain ⟨u, hu, heq, row, hrow, hcells⟩ := hr.row key hsome
      exact ⟨u, List.mem_append_left _ hu, heq, row, (hother key hkey).trans hrow, hcells⟩

end Row

/-- **Some transfers**, any of which may share a key. -/
theorem Recorded.persisted {db db' : Database Table} {done ts : List Transfer}
    (hr : Recorded db done) (hts : ∀ t ∈ ts, t.Routed)
    (h : PersistedAll db (ts.map Transfer.record) db') : Recorded db' (done ++ ts) := by
  induction ts generalizing db done with
  | nil =>
    cases h
    rwa [List.append_nil]
  | cons t ts ih =>
    obtain ⟨ht, hts⟩ := List.forall_mem_cons.mp hts
    cases h with
    | cons first rest =>
      rw [ht.record_eq] at first rest
      obtain ⟨now, hnow, haccepted, hdb⟩ := db_consume_assignment first
      rw [hdb] at rest
      have hnext := ih (hr.insert (t := t) haccepted hnow) hts rest
      rwa [List.append_assoc] at hnext

/-! ### The property -/

theorem Recorded.complete_iff {db : Database Table} {ts : List Transfer} (h : Recorded db ts) :
    Complete db ts ↔ (ts.map Transfer.rowKey).Nodup := by
  constructor
  · rintro ⟨keys, hnodup, hkeys, hrows⟩
    have hsubset : keys ⊆ ts.map Transfer.rowKey := fun key hkey =>
      List.mem_map.mpr ((h.rows key).mp ((hkeys key).mpr hkey))
    -- as many keys as transfers
    have hlength : (ts.map Transfer.rowKey).length ≤ keys.length := by
      rw [List.length_map, hrows.length_eq]
    exact ((hnodup.subperm hsubset).perm_of_length_le hlength).nodup_iff.mp hnodup
  · intro hnodup
    refine ⟨ts.map Transfer.rowKey, hnodup, fun key => ?_, ?_⟩
    · rw [h.rows key, List.mem_map]
    · rw [List.forall₂_map_right_iff, List.forall₂_same]
      intro t ht
      obtain ⟨u, hu, heq, hrow⟩ := h.row t.rowKey ((h.rows _).mpr ⟨t, ht, rfl⟩)
      rwa [List.inj_on_of_nodup_map hnodup hu ht heq] at hrow

theorem nodup_rowKey_iff (ts : List Transfer) : (ts.map Transfer.rowKey).Nodup ↔
    (ts.map fun t => (t.event.conversation_id, t.event.timestamp)).Nodup := by
  have hinj : Function.Injective fun p : String × ℤ =>
      [Cell.text p.1, Cell.timestamp (p.2 * 1000)] := by
    rintro ⟨c, s⟩ ⟨d, r⟩ heq
    simp only [List.cons.injEq, Cell.text.injEq, Cell.timestamp.injEq, and_true] at heq
    exact Prod.ext heq.1 (by omega)
  rw [← List.nodup_map_iff hinj, List.map_map]
  rfl

/-- No assignment is recorded. -/
def NoAssignments (db : Database Table) : Prop := ∀ key, db .agentAssignments key = none

theorem Recorded.empty {db : Database Table} (h : NoAssignments db) : Recorded db [] where
  rows key := by simp [h key]
  row key hsome := by
    rw [h key] at hsome
    exact absurd hsome Bool.false_ne_true

/-- **The history of assignments is complete exactly if no conversation is transferred twice in one
second**: the transfers have found an agent, and their records are persisted without failure. -/
theorem assignments_complete_iff {db db' : Database Table} {ts : List Transfer}
    (hts : ∀ t ∈ ts, t.Routed) (hempty : NoAssignments db)
    (h : PersistedAll db (ts.map Transfer.record) db') :
    Complete db' ts ↔
      (ts.map fun t => (t.event.conversation_id, t.event.timestamp)).Nodup := by
  have hall := (Recorded.empty hempty).persisted hts h
  rw [List.nil_append] at hall
  rw [hall.complete_iff, nodup_rowKey_iff]

/-! ### Two transfers of one second -/

/-- Records with a conversation and a time are persisted. -/
theorem exists_persisted {ts : List Transfer} (hts : ∀ t ∈ ts, t.Routed)
    (hfits : ∀ t ∈ ts, DateTime.InRange t.event.timestamp ∧ t.event.conversation_id ≠ "")
    (db : Database Table) : ∃ db', PersistedAll db (ts.map Transfer.record) db' := by
  induction ts generalizing db with
  | nil => exact ⟨db, .nil db⟩
  | cons t ts ih =>
    obtain ⟨ht, hts⟩ := List.forall_mem_cons.mp hts
    obtain ⟨hfit, hfits⟩ := List.forall_mem_cons.mp hfits
    obtain ⟨db', h⟩ := ih hts hfits ((consume t.record.payload).run (healthy db)).2.db
    refine ⟨db', .cons ?_ h⟩
    rw [ht.record_eq]
    exact (completed_assignment_iff t.event t.agent_id).mpr hfit

/-- Two agents with room for one chat each. -/
def twoAgents : World :=
  { World.empty with
    router := (Router.empty.agentGoOnline "agent-1" 1 []).agentGoOnline "agent-2" 1 [] }

/-- What a client sends for an agent. -/
def transferFrame (timestamp : ℤ) : Dict Json :=
  ([⟨"event_type", .str "transfer_to_agent"⟩, ⟨"conversation_id", .str "conv-1"⟩,
    ⟨"timestamp", .int timestamp⟩] : List (Σ _ : String, Json)).toAList

/-- A transfer that finds the agent. -/
def transferOf (w : World) (timestamp : ℤ) (agent_id : String) : Transfer where
  env := .healthy .noon
  world := w
  key := "conv-1"
  raw := transferFrame timestamp
  event := ⟨"conv-1", "", "", timestamp⟩
  agent_id := agent_id
  record := ⟨CHAT_PERSIST, "conv-1", .obj (assignmentRecord ⟨"conv-1", "", "", timestamp⟩ agent_id)⟩

theorem routed_transferOf {w : World} {timestamp : ℤ} {agent_id : String}
    (hwide : Json.Wide timestamp)
    (h : ((routeToAgent (.healthy .noon) "conv-1").run w.silent).1 = .ok (some agent_id)) :
    (transferOf w timestamp agent_id).Routed where
  event := rfl
  agent_id := h
  record := by
    have hparse : TransferToAgentEvent.parse (transferOf w timestamp agent_id).env.parsing
      (transferOf w timestamp agent_id).raw = some (transferOf w timestamp agent_id).event := rfl
    have hsame : SameOutputs w.silent ((routeToAgent (.healthy .noon) "conv-1").run w.silent).2 :=
      keeps_routeToAgent (fun _ => ⟨rfl, rfl, rfl, rfl⟩) _
    have hroute : (routeToAgent (.healthy .noon) "conv-1").run w.silent =
        (.ok (some agent_id), ((routeToAgent (.healthy .noon) "conv-1").run w.silent).2) :=
      Prod.ext h rfl
    have hnamed : "conv-1" ≠ "" := by decide
    rw [transferToAgent, validate_bind_of_some hparse]
    exact (publishes_onTransferToAgent_iff hroute).mpr
      ((publishes_recordAssignment_iff hsame.published).mpr ⟨⟨⟨rfl, hnamed⟩, rfl⟩, hwide, rfl⟩)

/-- The first transfer. -/
def firstTransfer : Transfer := transferOf twoAgents 1748275200 "agent-1"

/-- A transfer after the first one. -/
def nextTransfer (timestamp : ℤ) : Transfer :=
  transferOf ((transferToAgent firstTransfer.env firstTransfer.key firstTransfer.raw).run
    firstTransfer.world).2 timestamp "agent-2"

theorem routed_firstTransfer : firstTransfer.Routed :=
  routed_transferOf (by decide) (by rfl)

theorem routed_nextTransfer {timestamp : ℤ} (hwide : Json.Wide timestamp) :
    (nextTransfer timestamp).Routed :=
  routed_transferOf hwide (by rfl)

theorem noAssignments_empty : NoAssignments Database.empty := fun _ => rfl

/-- The two transfers are persisted. -/
theorem exists_persisted_next {timestamp : ℤ} (hwide : Json.Wide timestamp)
    (hrange : DateTime.InRange timestamp) : ∃ db', PersistedAll Database.empty
      ([firstTransfer, nextTransfer timestamp].map Transfer.record) db' := by
  have hnamed : "conv-1" ≠ "" := by decide
  have hfirst : DateTime.InRange 1748275200 := by decide
  refine exists_persisted ?_ ?_ Database.empty
  · exact List.forall_mem_cons.mpr ⟨routed_firstTransfer,
      List.forall_mem_singleton.mpr (routed_nextTransfer hwide)⟩
  · exact List.forall_mem_cons.mpr ⟨⟨hfirst, hnamed⟩,
      List.forall_mem_singleton.mpr ⟨hrange, hnamed⟩⟩

/-- A second later both agents are recorded. -/
theorem assignments_complete_iff_later : ∃ db',
    PersistedAll Database.empty ([firstTransfer, nextTransfer 1748275201].map Transfer.record) db' ∧
    (Complete db' [firstTransfer, nextTransfer 1748275201] ↔
      ([firstTransfer, nextTransfer 1748275201].map fun t =>
        (t.event.conversation_id, t.event.timestamp)).Nodup) := by
  have hwide : Json.Wide 1748275201 := by decide
  obtain ⟨db', h⟩ := exists_persisted_next hwide (by decide)
  refine ⟨db', h, assignments_complete_iff ?_ noAssignments_empty h⟩
  exact List.forall_mem_cons.mpr ⟨routed_firstTransfer,
    List.forall_mem_singleton.mpr (routed_nextTransfer hwide)⟩

/-- **An assignment overwrites another**: the conversation is transferred twice in one second, and
the two transfers find different agents. -/
theorem not_assignments_complete : ∃ (t u : Transfer) (db' : Database Table), t.Routed ∧ u.Routed ∧
    u.world = ((transferToAgent t.env t.key t.raw).run t.world).2 ∧ t.agent_id ≠ u.agent_id ∧
    NoAssignments Database.empty ∧ PersistedAll Database.empty ([t, u].map Transfer.record) db' ∧
    ¬Complete db' [t, u] := by
  have hwide : Json.Wide 1748275200 := by decide
  obtain ⟨db', h⟩ := exists_persisted_next hwide (by decide)
  have hnext : (nextTransfer 1748275200).Routed := routed_nextTransfer hwide
  have hr : Recorded Database.empty [] := .empty noAssignments_empty
  have hall := hr.persisted (List.forall_mem_cons.mpr ⟨routed_firstTransfer,
    List.forall_mem_singleton.mpr hnext⟩) h
  rw [List.nil_append] at hall
  refine ⟨firstTransfer, nextTransfer 1748275200, db', routed_firstTransfer, hnext, rfl, ?_,
    noAssignments_empty, h, fun hcomplete => ?_⟩
  · decide
  · have hnodup := hall.complete_iff.mp hcomplete
    exact absurd hnodup (by decide)

end Persistence

end TitanChat
