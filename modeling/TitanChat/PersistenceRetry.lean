import TitanChat.PersistenceScript

/-!
# All or dead letter

`_execute_with_retry` calls a handler up to three times and rolls nothing back in between, so an
attempt starts from what the ones before it have written. This leaves no trace: every statement that
is followed by another one sets cells to values of the record, and the counters of unread messages
are incremented by the last statement of a handler, which is not reached twice.

What can be lost is the record itself. `_send_to_dlq` serialises it again and only logs an error
there, and a record may be nested more deeply than it can be serialised.

## Main definitions

* `Script.Repeatable`: only the last statement of the script increments, and all write to different
  tables
* `once`: the database after a run without failures
* `AllFail`: no attempt ends well
* `Settles`: the law of the retry

## Main results

* `Script.Repeatable.overwritten`: what a failed run has written, a whole run overwrites
* `attempt_cases`: how some attempts end
* `settles_iff`: the law holds exactly for the records that can be serialised again
-/

namespace TitanChat

open WideColumn Replay

namespace Persistence

/-! ### Statements that may be repeated -/

namespace Script

/-- The script writes to these tables in this order, and overwrites in all statements but its last
one. -/
inductive Repeatable : List Table → Script → Prop where
  | done (ts : List Table) : Repeatable ts .done
  | fails (ts : List Table) : Repeatable ts .fails
  | last {stmt : Statement Table} {t : Table} {ts : List Table} (ht : stmt.table = t) :
      Repeatable (t :: ts) (.write stmt .done)
  | write {stmt : Statement Table} {t : Table} {ts : List Table} {rest : Script}
      (ht : stmt.table = t) (h : stmt.Overwrites) (hrest : Repeatable ts rest) :
      Repeatable (t :: ts) (.write stmt rest)

variable {ts : List Table} {sc : Script}

theorem Repeatable.read {α : Type} {rest : α → Script} (h : ∀ a, Repeatable ts (rest a))
    (value : Option α) : Repeatable ts (read value rest) := by
  cases value with
  | none => exact .fails ts
  | some a => exact h a

theorem read_ne_done {α : Type} {rest : α → Script} (h : ∀ a, rest a ≠ done) (value : Option α) :
    read value rest ≠ done := by
  cases value with
  | none => simp [read]
  | some a => exact h a

theorem Repeatable.sublist_tables (h : Repeatable ts sc) :
    (sc.writes.map Statement.table).Sublist ts := by
  induction h with
  | done ts | fails ts => exact List.nil_sublist ts
  | last ht =>
    rw [writes]
    split
    · rw [← ht]
      exact (List.nil_sublist _).cons_cons _
    · exact List.nil_sublist _
  | write ht h hrest ih =>
    rw [writes]
    split
    · rw [← ht]
      exact ih.cons_cons _
    · exact List.nil_sublist _

/-- The first statement that took effect. -/
theorem prefix_writes {stmt p : Statement Table} {rest : Script} {ps : List (Statement Table)}
    (h : p :: ps <+: (write stmt rest).writes) :
    stmt.accepted schema ∧ p = stmt ∧ ps <+: rest.writes := by
  rw [writes] at h
  split at h
  · next haccepted => exact ⟨haccepted, List.cons_prefix_cons.mp h⟩
  · exact absurd (List.prefix_nil.mp h) (List.cons_ne_nil p ps)

/-- A failed run has only overwritten. -/
theorem Repeatable.overwrites (h : Repeatable ts sc) {ps : List (Statement Table)}
    (hps : ps <+: sc.writes) (hfail : ¬(sc.completes ∧ ps = sc.writes)) :
    ∀ p ∈ ps, p.Overwrites := by
  induction h generalizing ps with
  | done ts | fails ts =>
    obtain rfl : ps = [] := List.prefix_nil.mp hps
    exact List.forall_mem_nil _
  | @last stmt t ts ht =>
    cases ps with
    | nil => exact List.forall_mem_nil _
    | cons p ps =>
      obtain ⟨haccepted, rfl, htail⟩ := prefix_writes hps
      obtain rfl : ps = [] := List.prefix_nil.mp htail
      exact absurd ⟨by simp [completes, haccepted], by simp [writes, haccepted]⟩ hfail
  | @write stmt t ts rest ht hstmt hrest ih =>
    cases ps with
    | nil => exact List.forall_mem_nil _
    | cons p ps =>
      obtain ⟨haccepted, rfl, htail⟩ := prefix_writes hps
      refine List.forall_mem_cons.mpr ⟨hstmt, ih htail ?_⟩
      rintro ⟨hcompletes, rfl⟩
      exact hfail ⟨by simp [completes, haccepted, hcompletes], by simp [writes, haccepted]⟩

/-- **What a failed run has written, a whole run overwrites.** -/
theorem Repeatable.overwritten (h : Repeatable ts sc) (hts : ts.Nodup)
    {ps : List (Statement Table)} (hps : ps <+: sc.writes)
    (hfail : ¬(sc.completes ∧ ps = sc.writes)) :
    ∀ p ∈ ps, Overwritten (Database.apply schema) sc.writes p := by
  intro p hp
  have hmem : p ∈ sc.writes := hps.subset hp
  have hnodup : (sc.writes.map Statement.table).Nodup := hts.sublist h.sublist_tables
  refine ⟨hmem, Database.apply_apply (h.overwrites hps hfail p hp), fun v hv => ?_⟩
  by_cases hpv : p = v
  · subst hpv
    exact fun s => rfl
  · exact Database.apply_comm fun htable => hpv (List.inj_on_of_nodup_map hnodup hmem hv htable)

end Script

/-- No statement increments before the last one of its handler. -/
theorem repeatable_script {persist_type : String} {sc : Dict Json → Script}
    (h : script persist_type = some sc) (payload : Dict Json) :
    ∃ ts : List Table, ts.Nodup ∧ (sc payload).Repeatable ts := by
  rw [script.eq_def] at h
  split at h
  · obtain rfl := Option.some.inj h
    refine ⟨[.messages, .conversations, .unreadCounters], by decide, ?_⟩
    refine .read (fun now => .read (fun conversation_id => .read (fun message_id => .read
      (fun sender_id => .read (fun sender_type => .read (fun content_type => .read (fun content =>
      .read (fun seq => ?_) _) _) _) _) _) _) _) _
    refine .write (by rfl) ?_ (.read (fun preview => .write (by rfl) ?_ (.read (fun recipient =>
      .last (by rfl)) _)) _)
    · simp [insertMessage, Statement.Overwrites]
    · simp [updatePreview, Statement.Overwrites]
  · obtain rfl := Option.some.inj h
    refine ⟨[.conversationsByUser, .agentQueue], by decide, ?_⟩
    refine .read (fun now => .read (fun user_id => .read (fun conversation_id =>
      .write (by rfl) ?_ (.last (by rfl))) _) _) _
    simp [insertConversationByUser, Statement.Overwrites]
  · obtain rfl := Option.some.inj h
    refine ⟨[.conversations], by decide, ?_⟩
    exact .read (fun now => .read (fun conversation_id => .last (by rfl)) _) _
  · obtain rfl := Option.some.inj h
    refine ⟨[.messageAcks, .unreadCounters], by decide, ?_⟩
    refine .read (fun now => .read (fun conversation_id => .read (fun message_id => .read
      (fun ack_type => .read (fun from_user_id => .read (fun ack_type' =>
      .write (by rfl) ?_ ?_) _) _) _) _) _) _
    · simp [insertAck, Statement.Overwrites]
    · rw [readerScript.eq_def]
      split
      · exact .read (fun user_id => .last (by rfl)) _
      · exact .done _
  · obtain rfl := Option.some.inj h
    refine ⟨[.agentAssignments], by decide, ?_⟩
    exact .read (fun now => .read (fun conversation_id => .read (fun agent_id =>
      .last (by rfl)) _) _) _
  · exact absurd h (by simp)

/-- Every handler calls the database, if its record can be read. -/
theorem script_ne_done {persist_type : String} {sc : Dict Json → Script}
    (h : script persist_type = some sc) (payload : Dict Json) : sc payload ≠ .done := by
  rw [script.eq_def] at h
  split at h
  · obtain rfl := Option.some.inj h
    refine Script.read_ne_done (fun now => Script.read_ne_done (fun conversation_id => ?_) _) _
    refine Script.read_ne_done (fun message_id => Script.read_ne_done (fun sender_id => ?_) _) _
    refine Script.read_ne_done (fun sender_type => Script.read_ne_done (fun content_type => ?_) _) _
    exact Script.read_ne_done (fun content => Script.read_ne_done (fun seq => by simp) _) _
  · obtain rfl := Option.some.inj h
    refine Script.read_ne_done (fun now => Script.read_ne_done (fun user_id => ?_) _) _
    exact Script.read_ne_done (fun conversation_id => by simp) _
  · obtain rfl := Option.some.inj h
    exact Script.read_ne_done (fun now => Script.read_ne_done (fun conversation_id => by simp) _) _
  · obtain rfl := Option.some.inj h
    refine Script.read_ne_done (fun now => Script.read_ne_done (fun conversation_id => ?_) _) _
    refine Script.read_ne_done (fun message_id => Script.read_ne_done (fun ack_type => ?_) _) _
    exact Script.read_ne_done (fun from_user_id => Script.read_ne_done (fun ack_type' => by simp) _)
      _
  · obtain rfl := Option.some.inj h
    refine Script.read_ne_done (fun now => Script.read_ne_done (fun conversation_id => ?_) _) _
    exact Script.read_ne_done (fun agent_id => by simp) _
  · exact absurd h (by simp)

/-! ### The attempts -/

/-- The database after a run of the handler without failures. -/
def once (handler : Dict Json → Step Unit) (payload : Dict Json) (db : Database Table) :
    Database Table :=
  ((handler payload).run { db, faults := [], deadLetters := [] }).2.db

/-- None of so many attempts, one after another, returns. -/
def AllFail (handler : Dict Json → Step Unit) (payload : Dict Json) : ℕ → Store → Prop
  | 0, _ => True
  | n + 1, s => ((handler payload).run s).1.isOk = false ∧
      AllFail handler payload n ((handler payload).run s).2

/-- **The law of the retry.** Either an attempt returns and the database is as after one run without
failures, or all fail, the record is published as a dead letter, and a run without failures still
makes of the database what one run would have made of it at the start. -/
def Settles (handler : Dict Json → Step Unit) (payload : Dict Json) (conversation_id : String)
    (s : Store) : Prop :=
  let s' := ((executeWithRetry handler payload).run s).2
  (¬AllFail handler payload MAX_RETRIES s ∧ s'.db = once handler payload s.db ∧
      s'.deadLetters = s.deadLetters) ∨
    (AllFail handler payload MAX_RETRIES s ∧
      s'.deadLetters = s.deadLetters ++ [⟨conversation_id, payload, MAX_RETRIES⟩] ∧
      once handler payload s'.db = once handler payload s.db)

/-- `_send_to_dlq` can serialise the record again. -/
def Reserialisable (payload : Dict Json) : Prop :=
  (Json.obj [("original_payload", .ofDict payload)]).transit.isSome

section Attempts

variable {handler : Dict Json → Step Unit} {payload : Dict Json} {sc : Script}

theorem once_eq (h : Follows (handler payload) sc) (db : Database Table) :
    once handler payload db = perform (Database.apply schema) db sc.writes := by
  have hrun := congrArg (fun r => r.2.db) (h { db, faults := [], deadLetters := [] })
  rw [Script.run_of_faults_eq_nil sc rfl] at hrun
  exact hrun

/-- How one attempt ends. -/
theorem run_handler_cases (h : Follows (handler payload) sc) (s : Store) :
    ∃ ps, ps <+: sc.writes ∧
      ((handler payload).run s).2.db = perform (Database.apply schema) s.db ps ∧
      ((handler payload).run s).2.deadLetters = s.deadLetters ∧
      (((handler payload).run s).1.isOk = true ↔ sc.completes ∧ ps = sc.writes) := by
  obtain ⟨ps, hps, hdb, hdead, hok⟩ := sc.run_cases s
  rw [← h s] at hdb hdead hok
  exact ⟨ps, hps, hdb, hdead, hok⟩

theorem run_attempt_of_ok {s s' : Store} {u : Unit} (h : (handler payload).run s = (.ok u, s'))
    (n : ℕ) : (attempt handler payload (n + 1)).run s = (.ok (), s') := by
  simp only [attempt, h]

theorem run_attempt_of_error {s s' : Store} {e : Failure}
    (h : (handler payload).run s = (.error e, s')) (n : ℕ) :
    (attempt handler payload (n + 1)).run s = (attempt handler payload n).run s' := by
  simp only [attempt, h]

/-- **How some attempts end.** A failed attempt does not change what a run without failures makes of
the database. -/
theorem attempt_cases (h : Follows (handler payload) sc)
    (hover : ∀ ps, ps <+: sc.writes → ¬(sc.completes ∧ ps = sc.writes) →
      ∀ p ∈ ps, Overwritten (Database.apply schema) sc.writes p) (n : ℕ) (s : Store) :
    (¬AllFail handler payload n s ∧
      ((attempt handler payload n).run s).2.db = once handler payload s.db ∧
      ((attempt handler payload n).run s).2.deadLetters = s.deadLetters) ∨
    (AllFail handler payload n s ∧ ∃ s', s'.deadLetters = s.deadLetters ∧
      once handler payload s'.db = once handler payload s.db ∧
      (attempt handler payload n).run s = (sendToDlq payload).run s') := by
  induction n generalizing s with
  | zero => exact Or.inr ⟨trivial, s, rfl, rfl, rfl⟩
  | succ n ih =>
    obtain ⟨ps, hps, hdb, hdead, hok⟩ := run_handler_cases h s
    rcases hrun : (handler payload).run s with ⟨r, s'⟩
    rw [hrun] at hdb hdead hok
    cases r with
    | ok u =>
      obtain ⟨-, rfl⟩ := hok.mp rfl
      refine Or.inl ⟨?_, ?_, ?_⟩
      · rw [AllFail, hrun]
        rintro ⟨hfail, -⟩
        exact absurd hfail (by simp [Except.isOk, Except.toBool])
      · rw [run_attempt_of_ok hrun, once_eq h]
        exact hdb
      · rw [run_attempt_of_ok hrun]
        exact hdead
    | error e =>
      have hfail : ¬(sc.completes ∧ ps = sc.writes) :=
        mt hok.mpr (by simp [Except.isOk, Except.toBool])
      have honce : once handler payload s'.db = once handler payload s.db := by
        rw [once_eq h, once_eq h, hdb, perform_perform (hover ps hps hfail)]
      have hall : AllFail handler payload (n + 1) s ↔ AllFail handler payload n s' := by
        rw [AllFail, hrun]
        exact and_iff_right rfl
      rw [run_attempt_of_error hrun, hall, ← honce, ← hdead]
      exact ih s'

theorem deadLetters_sendToDlq {c : String} (hc : payload.lookup "conversation_id" = some (.str c))
    (h : Reserialisable payload) (s : Store) : (sendToDlq payload).run s =
      (.ok (), { s with deadLetters := s.deadLetters ++ [⟨c, payload, MAX_RETRIES⟩] }) := by
  obtain ⟨v, hv⟩ := Option.isSome_iff_exists.mp h
  have hkey : optional payload "conversation_id" (.str "unknown") = .str c := by
    rw [optional, hc, Option.getD_some]
  rw [sendToDlq, hkey, hv]
  rfl

/-- A record that cannot be serialised again is lost. -/
theorem sendToDlq_of_not_reserialisable (h : ¬Reserialisable payload) (s : Store) :
    (sendToDlq payload).run s = (.ok (), s) := by
  have hnone : (Json.obj [("original_payload", .ofDict payload)]).transit = none :=
    Option.not_isSome_iff_eq_none.mp h
  rw [sendToDlq, hnone]
  split
  · next heq => exact absurd heq (by simp)
  · rfl

/-- Then no attempt adds a dead letter. -/
theorem deadLetters_of_not_reserialisable (h : Follows (handler payload) sc)
    (hlost : ¬Reserialisable payload) (n : ℕ) (s : Store) :
    ((attempt handler payload n).run s).2.deadLetters = s.deadLetters := by
  induction n generalizing s with
  | zero => rw [attempt, sendToDlq_of_not_reserialisable hlost]
  | succ n ih =>
    obtain ⟨-, -, -, hdead, -⟩ := run_handler_cases h s
    rcases hrun : (handler payload).run s with ⟨r, s'⟩
    rw [hrun] at hdead
    cases r with
    | ok u => rw [run_attempt_of_ok hrun, ← hdead]
    | error e => rw [run_attempt_of_error hrun, ih, ← hdead]

/-- A script is stopped by a fault, if it does not stop by itself. -/
theorem run_replicate (hsc : sc ≠ .done) {s : Store} {n : ℕ}
    (hs : s.faults = List.replicate (n + 1) true) :
    (sc.run s).1 = false ∧ ∃ m ≥ n, (sc.run s).2.faults = List.replicate m true := by
  cases sc with
  | done => exact absurd rfl hsc
  | fails => exact ⟨rfl, n + 1, n.le_succ, hs⟩
  | write stmt rest =>
    rw [Script.run_of_fault stmt rest hs]
    exact ⟨rfl, n, le_rfl, rfl⟩

/-- Enough faults make all attempts fail. -/
theorem allFail_replicate (h : Follows (handler payload) sc) (hsc : sc ≠ .done) {n m : ℕ}
    (hnm : n ≤ m) {s : Store} (hs : s.faults = List.replicate m true) :
    AllFail handler payload n s := by
  induction n generalizing m s with
  | zero => trivial
  | succ n ih =>
    obtain ⟨k, rfl⟩ : ∃ k, m = k + 1 := ⟨m - 1, by omega⟩
    obtain ⟨hfail, j, hj, hfaults⟩ := run_replicate hsc hs
    rw [← h s] at hfail hfaults
    exact ⟨hfail, ih (by omega) hfaults⟩

/-- If the database fails long enough, the record must be serialised again. -/
theorem reserialisable_of_settles (h : Follows (handler payload) sc) (hsc : sc ≠ .done)
    {c : String} {s : Store} (hs : s.faults = List.replicate MAX_RETRIES true)
    (hsettles : Settles handler payload c s) : Reserialisable payload := by
  have hall : AllFail handler payload MAX_RETRIES s := allFail_replicate h hsc le_rfl hs
  by_contra hlost
  obtain ⟨hnot, -⟩ | ⟨-, hletters, -⟩ := hsettles
  · exact hnot hall
  · rw [executeWithRetry, deadLetters_of_not_reserialisable h hlost] at hletters
    exact absurd hletters (by simp)

end Attempts

/-- **The retry is all or dead letter** for exactly the records that can be serialised again. -/
theorem settles_iff {persist_type : String} {handler : Dict Json → Step Unit} {payload : Dict Json}
    {conversation_id : String} (htype : persistHandlers persist_type = some handler)
    (hc : payload.lookup "conversation_id" = some (.str conversation_id)) :
    (∀ s, Settles handler payload conversation_id s) ↔ Reserialisable payload := by
  obtain ⟨sc, hsc, hfollows⟩ := follows_script htype
  obtain ⟨ts, hts, hrepeatable⟩ := repeatable_script hsc payload
  constructor
  · intro h
    let s : Store := ⟨.empty, List.replicate MAX_RETRIES true, []⟩
    have hsettles : Settles handler payload conversation_id s := h s
    exact reserialisable_of_settles (hfollows payload) (script_ne_done hsc payload) rfl hsettles
  · intro h s
    obtain ⟨hnot, hdb, hdead⟩ | ⟨hall, s', hdead, honce, hrun⟩ := attempt_cases (hfollows payload)
      (fun ps hps hfail => hrepeatable.overwritten hts hps hfail) MAX_RETRIES s
    · exact Or.inl ⟨hnot, hdb, hdead⟩
    · refine Or.inr ⟨hall, ?_, ?_⟩
      · rw [executeWithRetry, hrun, deadLetters_sendToDlq hc h, hdead]
      · rw [executeWithRetry, hrun, deadLetters_sendToDlq hc h]
        exact honce

/-- The record of a `chat_end`. -/
def endRecord (metadata : Json) : Dict Json :=
  ((AList.singleton "metadata" metadata).insert "timestamp" (.int 1748275200)).insert
    "conversation_id" (.str "conv-1")

theorem settles_iff_endRecord :
    (∀ s, Settles persistChatEnd (endRecord .null) "conv-1" s) ↔
      Reserialisable (endRecord .null) :=
  settles_iff (show persistHandlers "chat_end" = some persistChatEnd from rfl) rfl

/-- A list in a list, and so on. -/
def nested : ℕ → Json
  | 0 => .null
  | n + 1 => .arr [nested n]

theorem depth_nested (n : ℕ) : (nested n).depth = n := by
  induction n with
  | zero => rfl
  | succ n ih => simp [nested, Json.depth, Json.depthList, ih]

/-- A record of depth 254 can be published, and cannot be published as a part of another one. -/
theorem not_reserialisable_endRecord : ¬Reserialisable (endRecord (nested 253)) := by
  have hdepth :
      (Json.obj [("original_payload", .ofDict (endRecord (nested 253)))]).depth = 255 := by
    simp [endRecord, Json.ofDict, Json.depth, Json.depthEntries, depth_nested]
  rw [Reserialisable, Json.transit, hdepth]
  decide

/-- The database fails three times and the record is lost. -/
theorem not_settles :
    ¬ ∀ (persist_type : String) (handler : Dict Json → Step Unit) (payload : Dict Json)
      (conversation_id : String) (s : Store), persistHandlers persist_type = some handler →
        payload.lookup "conversation_id" = some (.str conversation_id) →
          Settles handler payload conversation_id s := by
  intro h
  let s : Store := ⟨.empty, [true, true, true], []⟩
  have hsettles : Settles persistChatEnd (endRecord (nested 253)) "conv-1" s :=
    h "chat_end" persistChatEnd (endRecord (nested 253)) "conv-1" s rfl rfl
  exact not_reserialisable_endRecord <| reserialisable_of_settles (follows_persistChatEnd _)
    (script_ne_done (show script "chat_end" = some chatEndScript from rfl) _) rfl hsettles

end Persistence

end TitanChat
