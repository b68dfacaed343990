import TitanChat.WritePath

/-!
# The rows of `conversations`

Four statements write the table `conversations`: the `INSERT` of a chat that starts, and the
`UPDATE`s of an assignment, of a preview and of a chat that ends. An `UPDATE` creates the row if it
is not there, so a row need not have been inserted.

## Main definitions

* `conversationRow`, `WritesRow`
* `Known`: the statements of the two paths
* `Sourced`: nothing else is on its way to the database

## Main results

* `conversationRow_apply`: a row after a statement
* `known_of_executes`: every statement of a run is known
-/

namespace TitanChat

open WideColumn Handlers Persistence

/-- The row of a conversation. -/
def conversationRow (db : Database Table) (c : String) : Option (AList fun _ : String => Cell) :=
  db .conversations [.text c]

/-- The statement writes the row of a conversation. -/
def WritesRow (c : String) (stmt : Statement Table) : Prop :=
  stmt.accepted schema ∧ stmt.table = .conversations ∧
    stmt.bound.lookup "conversation_id" = some (.text c)

instance (c : String) (stmt : Statement Table) : Decidable (WritesRow c stmt) :=
  inferInstanceAs (Decidable (_ ∧ _ ∧ _))

/-- **A row after a statement.** -/
theorem conversationRow_apply (db : Database Table) (stmt : Statement Table) (c : String) :
    conversationRow (db.apply schema stmt) c =
      if WritesRow c stmt then some (stmt.write ((conversationRow db c).getD ∅))
      else conversationRow db c := by
  cases haccepted : stmt.accepted schema with
  | false => rw [Database.apply_of_not_accepted haccepted, if_neg (by simp [WritesRow, haccepted])]
  | true =>
    have hexecute := Database.execute_eq_apply haccepted db
    have hkey : (schema .conversations).keyOf stmt.bound =
        ((stmt.bound.lookup "conversation_id").filter (· ≠ .null)).map fun cell => [cell] := by
      simp only [schema, TableSchema.keyOf, TableSchema.key, List.append_nil, List.mapM_cons,
        List.mapM_nil]
      cases (stmt.bound.lookup "conversation_id").filter (· ≠ .null) <;> rfl
    by_cases hw : WritesRow c stmt
    · obtain ⟨-, htable, hbound⟩ := hw
      have hself : (schema stmt.table).keyOf stmt.bound = some [.text c] := by
        rw [htable, hkey, hbound]
        rfl
      rw [if_pos ⟨haccepted, htable, hbound⟩, conversationRow, ← htable,
        Database.execute_self hexecute hself, conversationRow, htable]
    · rw [if_neg hw]
      refine Database.execute_of_ne hexecute ?_
      rintro ⟨htable, hself⟩
      rw [← htable, hkey, Option.map_eq_some_iff] at hself
      obtain ⟨cell, hcell, heq⟩ := hself
      obtain rfl : cell = .text c := List.singleton_inj.mp heq
      exact hw ⟨haccepted, htable.symm, (Option.filter_eq_some_iff.mp hcell).1⟩

theorem conversationRow_of_not_writesRow {stmt : Statement Table} {c : String}
    (h : ¬WritesRow c stmt) (db : Database Table) :
    conversationRow (db.apply schema stmt) c = conversationRow db c := by
  rw [conversationRow_apply, if_neg h]

theorem conversationRow_of_writesRow {stmt : Statement Table} {c : String} (h : WritesRow c stmt)
    (db : Database Table) : conversationRow (db.apply schema stmt) c =
      some (stmt.write ((conversationRow db c).getD ∅)) := by
  rw [conversationRow_apply, if_pos h]

/-- A column of a row that is written. -/
theorem lookup_of_writesRow {stmt : Statement Table} {c : String} (h : WritesRow c stmt)
    (db : Database Table) (column : String) :
    (conversationRow (db.apply schema stmt) c).bind (·.lookup column) =
      (stmt.write ((conversationRow db c).getD ∅)).lookup column := by
  rw [conversationRow_of_writesRow h, Option.bind_some]

/-- A column that the write leaves alone. -/
theorem lookup_of_write_eq {stmt : Statement Table} {c : String} (h : WritesRow c stmt)
    {db : Database Table} {column : String}
    (heq : (stmt.write ((conversationRow db c).getD ∅)).lookup column =
      ((conversationRow db c).getD ∅).lookup column) :
    (conversationRow (db.apply schema stmt) c).bind (·.lookup column) =
      (conversationRow db c).bind (·.lookup column) := by
  rw [lookup_of_writesRow h, heq]
  cases conversationRow db c <;> rfl

/-! ### The statements -/

/-- The statements of the two paths, as far as they concern `conversations`. -/
inductive Known : Statement Table → Prop
  | start (env : Env) (event : ChatStartEvent) : Known (insertConversation env event)
  | assign (c a : String) : Known (assignConversation c a)
  | preview (now : DateTime) (p c : Cell) : Known (updatePreview now p c)
  | close (now : DateTime) (c : Cell) : Known (endConversation now c)
  | other {stmt : Statement Table} (h : stmt.table ≠ .conversations) : Known stmt

section Writes

variable {c : String} {db : Database Table} {row : AList fun _ : String => Cell}

theorem writesRow_insertConversation {env : Env} {event : ChatStartEvent} :
    WritesRow c (insertConversation env event) ↔ c ≠ "" ∧ event.conversation_id = c := by
  rw [WritesRow, accepted_insertConversation]
  simp only [insertConversation, Statement.table, Statement.bound, List.lookup_cons,
    beq_self_eq_true, Option.some.injEq, Cell.text.injEq, true_and, decide_eq_true_eq]
  exact ⟨fun h => ⟨h.2 ▸ h.1, h.2⟩, fun h => ⟨h.2 ▸ h.1, h.2⟩⟩

theorem writesRow_assignConversation {d a : String} :
    WritesRow c (assignConversation d a) ↔ c ≠ "" ∧ d = c := by
  rw [WritesRow, accepted_assignConversation]
  simp only [assignConversation, Statement.table, Statement.bound, List.lookup_cons,
    beq_self_eq_true, Option.some.injEq, Cell.text.injEq, true_and, decide_eq_true_eq]
  exact ⟨fun h => ⟨h.2 ▸ h.1, h.2⟩, fun h => ⟨h.2 ▸ h.1, h.2⟩⟩

theorem lookup_write_insertConversation (env : Env) (event : ChatStartEvent) :
    ((insertConversation env event).write row).lookup "bot_id" = some (.text event.bot_id) ∧
      ((insertConversation env event).write row).lookup "status" = some (.text "active") := by
  simp [insertConversation, Statement.write]

theorem lookup_write_assignConversation (d a : String) :
    ((assignConversation d a).write row).lookup "bot_id" = row.lookup "bot_id" ∧
      ((assignConversation d a).write row).lookup "status" = some (.text "active") := by
  simp [assignConversation, Statement.write]

theorem lookup_write_updatePreview (now : DateTime) (p d : Cell) :
    ((updatePreview now p d).write row).lookup "bot_id" = row.lookup "bot_id" ∧
      ((updatePreview now p d).write row).lookup "status" = row.lookup "status" := by
  simp [updatePreview, Statement.write]

theorem lookup_write_endConversation (now : DateTime) (d : Cell) :
    ((endConversation now d).write row).lookup "bot_id" = row.lookup "bot_id" ∧
      ((endConversation now d).write row).lookup "status" = some (.text "ended") := by
  simp [endConversation, Statement.write]

end Writes

/-! ### Where statements come from -/

/-- All statements of the script have the property. -/
inductive Persistence.Script.All (P : Statement Table → Prop) : Script → Prop where
  | done : Script.All P .done
  | fails : Script.All P .fails
  | write {stmt : Statement Table} {rest : Script} (h : P stmt) (hrest : Script.All P rest) :
      Script.All P (.write stmt rest)

theorem Persistence.Script.All.read {P : Statement Table → Prop} {α : Type} {rest : α → Script}
    (h : ∀ a, (rest a).All P) (value : Option α) : (Script.read value rest).All P := by
  cases value with
  | none => exact .fails
  | some a => exact h a

theorem Persistence.Script.All.imp {P Q : Statement Table → Prop} (h : ∀ stmt, P stmt → Q stmt)
    {sc : Script} (hsc : sc.All P) : sc.All Q := by
  induction hsc with
  | done => exact .done
  | fails => exact .fails
  | write hst _ ih => exact .write (h _ hst) ih

/-- The statements of the worker. -/
inductive Persistence.WorkerWrite : Statement Table → Prop
  | message (now : DateTime) (conversation_id message_id sender_id sender_type content_type content
      seq : Cell) : WorkerWrite (insertMessage now conversation_id message_id sender_id sender_type
        content_type content seq)
  | preview (now : DateTime) (text : String) (conversation_id : Cell) :
      WorkerWrite (updatePreview now (.text text) conversation_id)
  | unread (amount : ℤ) (user_id conversation_id : Cell) :
      WorkerWrite (updateUnread amount user_id conversation_id)
  | byUser (now : DateTime) (user_id conversation_id : Cell) :
      WorkerWrite (insertConversationByUser now user_id conversation_id)
  | queue (now : DateTime) (conversation_id user_id : Cell) :
      WorkerWrite (insertQueueEntry now conversation_id user_id)
  | close (now : DateTime) (conversation_id : Cell) :
      WorkerWrite (endConversation now conversation_id)
  | ack (now : DateTime) (conversation_id message_id ack_type acked_by : Cell) :
      WorkerWrite (insertAck now conversation_id message_id ack_type acked_by)
  | assignment (now : DateTime) (conversation_id agent_id : Cell) :
      WorkerWrite (insertAssignment now conversation_id agent_id)

/-- A preview is text. -/
theorem exists_of_previewOf {payload : Dict Json} {preview : Cell}
    (h : previewOf payload = some preview) : ∃ text, preview = .text text := by
  rw [previewOf] at h
  split at h
  · exact ⟨_, (Option.some.inj h).symm⟩
  · cases h

theorem workerWrite_script {persist_type : String} {sc : Dict Json → Script}
    (h : script persist_type = some sc) (payload : Dict Json) : (sc payload).All WorkerWrite := by
  rw [script.eq_def] at h
  split at h
  · obtain rfl := Option.some.inj h
    refine .read (fun now => .read (fun conversation_id => .read (fun message_id => .read
      (fun sender_id => .read (fun sender_type => .read (fun content_type => .read (fun content =>
      .read (fun seq => .write (.message ..) ?_) _) _) _) _) _) _) _) _
    cases hpreview : previewOf payload with
    | none => exact .fails
    | some preview =>
      obtain ⟨text, rfl⟩ := exists_of_previewOf hpreview
      exact .write (.preview ..) (.read (fun recipient => .write (.unread ..) .done) _)
  · obtain rfl := Option.some.inj h
    exact .read (fun now => .read (fun user_id => .read (fun conversation_id =>
      .write (.byUser ..) (.write (.queue ..) .done)) _) _) _
  · obtain rfl := Option.some.inj h
    exact .read (fun now => .read (fun conversation_id => .write (.close ..) .done) _) _
  · obtain rfl := Option.some.inj h
    refine .read (fun now => .read (fun conversation_id => .read (fun message_id => .read
      (fun ack_type => .read (fun from_user_id => .read (fun ack_type' => .write (.ack ..) ?_)
      _) _) _) _) _) _
    rw [readerScript.eq_def]
    split
    · exact .read (fun user_id => .write (.unread ..) .done) _
    · exact .done
  · obtain rfl := Option.some.inj h
    exact .read (fun now => .read (fun conversation_id => .read (fun agent_id =>
      .write (.assignment ..) .done) _) _) _
  · cases h

theorem workerWrite_recordScript {v : Json} {sc : Script} (h : recordScript v = some sc) :
    sc.All WorkerWrite := by
  obtain ⟨payload, -, h⟩ := Option.bind_eq_some_iff.mp h
  split at h
  · obtain ⟨sc, hsc, rfl⟩ := Option.map_eq_some_iff.mp h
    exact workerWrite_script hsc payload
  · exact absurd h nofun

/-- **The scripts of the worker.** The property is to hold of the statements on `conversations`, and
of all on other tables. -/
theorem all_script {P : Statement Table → Prop} {persist_type : String}
    (hpreview : ∀ now p c, P (updatePreview now p c))
    (hclose : persist_type = "chat_end" → ∀ now c, P (endConversation now c))
    (hother : ∀ stmt : Statement Table, stmt.table ≠ .conversations → P stmt)
    {sc : Dict Json → Script} (h : script persist_type = some sc) (payload : Dict Json) :
    (sc payload).All P := by
  rw [script.eq_def] at h
  split at h
  · obtain rfl := Option.some.inj h
    refine .read (fun now => .read (fun conversation_id => .read (fun message_id => .read
      (fun sender_id => .read (fun sender_type => .read (fun content_type => .read (fun content =>
      .read (fun seq => .write (hother _ ?_) ?_) _) _) _) _) _) _) _) _
    · simp [insertMessage, Statement.table]
    · refine .read (fun preview => .write (hpreview ..) (.read (fun recipient =>
        .write (hother _ ?_) .done) _)) _
      simp [updateUnread, Statement.table]
  · obtain rfl := Option.some.inj h
    refine .read (fun now => .read (fun user_id => .read (fun conversation_id =>
      .write (hother _ ?_) (.write (hother _ ?_) .done)) _) _) _
    · simp [insertConversationByUser, Statement.table]
    · simp [insertQueueEntry, Statement.table]
  · obtain rfl := Option.some.inj h
    exact .read (fun now => .read (fun conversation_id => .write (hclose rfl ..) .done) _) _
  · obtain rfl := Option.some.inj h
    refine .read (fun now => .read (fun conversation_id => .read (fun message_id => .read
      (fun ack_type => .read (fun from_user_id => .read (fun ack_type' => .write (hother _ ?_) ?_)
      _) _) _) _) _) _
    · simp [insertAck, Statement.table]
    · rw [readerScript.eq_def]
      split
      · refine .read (fun user_id => .write (hother _ ?_) .done) _
        simp [updateUnread, Statement.table]
      · exact .done
  · obtain rfl := Option.some.inj h
    refine .read (fun now => .read (fun conversation_id => .read (fun agent_id =>
      .write (hother _ ?_) .done) _) _) _
    simp [insertAssignment, Statement.table]
  · exact absurd h (by simp)

theorem all_recordScript {P : Statement Table → Prop}
    (hpreview : ∀ now p c, P (updatePreview now p c)) (hclose : ∀ now c, P (endConversation now c))
    (hother : ∀ stmt : Statement Table, stmt.table ≠ .conversations → P stmt) {v : Json}
    {sc : Script} (h : recordScript v = some sc) : sc.All P := by
  obtain ⟨payload, -, h⟩ := Option.bind_eq_some_iff.mp h
  split at h
  · obtain ⟨sc, hsc, rfl⟩ := Option.map_eq_some_iff.mp h
    exact all_script hpreview (fun _ => hclose) hother hsc payload
  · exact absurd h (by simp)

namespace WritePath

/-- The operations of the handlers are operations of events, and the worker has known
statements. -/
structure Sourced (s : WritePath) : Prop where
  handlers : ∀ key, ∀ op ∈ s.handlers key, ∃ env agent_id, ∃ e : Event, op ∈ e.ops env agent_id
  worker : ∀ w, s.worker = some w → w.script.All Known ∧ w.rest.All Known

theorem Sourced.start : Sourced start where
  handlers key op hop := absurd hop (by simp [WritePath.start])
  worker w hw := absurd hw (by simp [WritePath.start])

end WritePath

theorem Attempt.retry_eq_some {w w' : Attempt} (h : w.retry = some w') :
    w'.script = w.script ∧ w'.rest = w.script := by
  rw [Attempt.retry] at h
  split at h
  · exact absurd h (by simp)
  · obtain rfl := Option.some.inj h
    exact ⟨rfl, rfl⟩

/-- The statements of an event. -/
theorem execute_mem_ops {env : Env} {agent_id : Option String} {e : Event} {stmt : Statement Table}
    (h : .execute stmt ∈ e.ops env agent_id) :
    (∃ event, e = .chatStart event ∧ (stmt = insertConversation env event ∨
        stmt = insertConversationByBot env event)) ∨
      ∃ event a, e = .transferToAgent event ∧ agent_id = some a ∧
        stmt = assignConversation event.conversation_id a := by
  cases e with
  | chatStart event =>
    refine Or.inl ⟨event, rfl, ?_⟩
    rw [Event.ops, chatStartOps] at h
    by_cases hbot : event.bot_id ≠ ""
    · simpa [hbot] using h
    · simpa [hbot] using Or.inl h
  | transferToAgent event =>
    cases agent_id with
    | none => simp [Event.ops, transferToAgentOps] at h
    | some a => exact Or.inr ⟨event, a, rfl, rfl, by simpa [Event.ops, transferToAgentOps] using h⟩
  | _ => simp [Event.ops] at h

theorem known_of_mem_ops {env : Env} {agent_id : Option String} {e : Event} {stmt : Statement Table}
    (h : .execute stmt ∈ e.ops env agent_id) : Known stmt := by
  obtain ⟨event, -, rfl | rfl⟩ | ⟨event, a, -, -, rfl⟩ := execute_mem_ops h
  · exact .start env event
  · exact .other (by simp [insertConversationByBot, Statement.table])
  · exact .assign ..

namespace WritePath

variable {s s' : WritePath}

/-- What is left of an attempt of the worker, and what is tried again. -/
theorem all_of_work {P : Statement Table → Prop} {w : Attempt} (hscript : w.script.All P)
    (hrest : w.rest.All P) {w' : Attempt} (hw' : (s.work w).worker = some w') :
    w'.script.All P ∧ w'.rest.All P := by
  have hretry (h : w.retry = some w') : w'.script.All P ∧ w'.rest.All P := by
    obtain ⟨hs, hr⟩ := Attempt.retry_eq_some h
    rw [hs, hr]
    exact ⟨hscript, hscript⟩
  rw [work] at hw'
  split at hw'
  · exact absurd hw' (by simp)
  · exact hretry hw'
  · next stmt rest hw =>
    split at hw'
    · exact hretry hw'
    · obtain rfl := Option.some.inj hw'
      rw [hw] at hrest
      cases hrest with
      | write _ hrest => exact ⟨hscript, hrest⟩

theorem Sourced.step (h : Sourced s) {a : Action} (hs : step s a = some s') : Sourced s' := by
  cases stepped_of_step hs with
  | @dispatch f env agent_id e hkey hidle he =>
    refine ⟨fun key op hop => ?_, h.worker⟩
    simp only [dispatch, Function.update_apply] at hop
    split at hop
    · exact ⟨env, agent_id, e, hop⟩
    · exact h.handlers key op hop
  | @hot key op ops rest stored hops hstored hrest =>
    refine ⟨fun key' op' hop' => ?_, h.worker⟩
    simp only [Function.update_apply] at hop'
    split at hop'
    · refine h.handlers key op' ?_
      rw [hops]
      exact List.mem_cons_of_mem _ (mem_of_mem_rest hrest hop')
    · exact h.handlers key' op' hop'
  | raise hbusy =>
    refine ⟨fun key' op hop => ?_, h.worker⟩
    simp only [Function.update_apply] at hop
    split at hop
    · exact absurd hop (by simp)
    · exact h.handlers key' op hop
  | take hidle hv =>
    refine ⟨h.handlers, fun w hw => ?_⟩
    obtain ⟨sc, hsc, rfl⟩ := Option.map_eq_some_iff.mp hw
    have hall : sc.All Known := all_recordScript .preview .close (fun _ => .other) hsc
    exact ⟨hall, hall⟩
  | write hw =>
    obtain ⟨hscript, hrest⟩ := h.worker _ hw
    exact ⟨by rw [handlers_work]; exact h.handlers, fun w' => all_of_work hscript hrest⟩
  | fail hw =>
    refine ⟨h.handlers, fun w' hw' => ?_⟩
    obtain ⟨hs, hr⟩ := Attempt.retry_eq_some hw'
    rw [hs, hr]
    exact ⟨(h.worker _ hw).1, (h.worker _ hw).1⟩

/-- **Every statement of a run is known.** -/
theorem known_of_executes (h : Sourced s) {a : Action} {stmt : Statement Table}
    (ha : s.executes a = some stmt) : Known stmt := by
  cases a with
  | hot key =>
    simp only [executes] at ha
    split at ha
    · next stmt' ops hops =>
      obtain rfl := Option.some.inj ha
      obtain ⟨env, agent_id, e, hmem⟩ := h.handlers key (.execute stmt') (by simp [hops])
      exact known_of_mem_ops hmem
    · exact absurd ha (by simp)
  | write =>
    simp only [executes] at ha
    split at ha
    · next script stmt' rest left hw =>
      obtain rfl := Option.some.inj ha
      cases (h.worker _ hw).2 with
      | write hknown _ => exact hknown
    · exact absurd ha (by simp)
  | _ => exact absurd ha (by simp [executes])

end WritePath

end TitanChat
