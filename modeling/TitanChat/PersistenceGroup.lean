import TitanChat.Internal.Interleaving
import TitanChat.LifecycleStatus
import TitanChat.Redelivery

/-!
# A group of persistence workers

Every instance of the consumer starts a persistence worker, and they are one group on
`chat-persist`. Kafka gives each partition of the topic to one of them. Which partition a record is
in depends on its key, and a handler publishes under the conversation that it is called for. If that
is the conversation that its event names, then the key of the record is its conversation. So the
records of one conversation have one worker and keep their order, and all others may be written in
any order, statement by statement.

No two statements of different conversations are on one row. So the group does what a single worker
could have done with the whole topic, whichever calls fail and whatever the interleaving is.

A client may name another conversation in a frame, and the record of such an event is keyed by one
conversation and written to another. The topics here have no such record.

## Main definitions

* `Phase`, `Worker`, `Worker.next`: a worker, one call at a time
* `Group.step`, `Group.start`: the workers of a group and what they write
* `Keyed`: the key of a record is its conversation

## Main results

* `commute_of_key_ne`: statements of different conversations commute
* `keyed_of_publish`: what a handler publishes, if its event names the conversation it is called for
* `single_worker_of_group`: a run of a group is a run of one worker
* `group_eq_consume`: when no call fails, this is `consume` for the records of the topic in order
-/

namespace TitanChat

open WideColumn Replay Interleaving Handlers

namespace Persistence

/-! ### What a worker writes -/

/-- A statement or a dead letter. -/
inductive Write where
  | execute (stmt : Statement Table)
  | bury (letter : DeadLetter)

/-- The database and `chat-persist-dlq`. -/
@[ext] structure Written where
  db : Database Table
  deadLetters : List DeadLetter

def Written.apply (s : Written) : Write → Written
  | .execute stmt => { s with db := s.db.apply schema stmt }
  | .bury letter => { s with deadLetters := s.deadLetters ++ [letter] }

namespace Write

/-- The conversation that a write is about. -/
def key : Write → Option Cell
  | execute stmt => stmt.bound.lookup "conversation_id"
  | bury letter => some (.text letter.key)

def statement? : Write → Option (Statement Table)
  | execute stmt => some stmt
  | bury _ => none

def letter? : Write → Option DeadLetter
  | execute _ => none
  | bury letter => some letter

end Write

/-- The letter that `_send_to_dlq` sends. -/
def letterOf (payload : Dict Json) : Option DeadLetter :=
  match optional payload "conversation_id" (.str "unknown"),
    (Json.obj [("original_payload", .ofDict payload)]).transit with
  | .str key, some _ => some ⟨key, payload, MAX_RETRIES⟩
  | _, _ => none

theorem run_sendToDlq (payload : Dict Json) (s : Store) : (sendToDlq payload).run s =
    (.ok (), { s with deadLetters := s.deadLetters ++ (letterOf payload).toList }) := by
  rw [sendToDlq, letterOf]
  generalize optional payload "conversation_id" (.str "unknown") = key
  generalize (Json.obj [("original_payload", .ofDict payload)]).transit = v
  cases key with
  | str key => cases v <;> simp
  | _ => simp

/-! ### A worker -/

/-- How far a worker is with a record. -/
inductive Phase where
  | idle
  | trying (payload : Dict Json) (attempt : Attempt)
  /-- All attempts have failed. -/
  | burying (payload : Dict Json)

/-- How the call that a worker is waiting for ends. -/
inductive Call where
  /-- The next statement is executed, or there is none. -/
  | write
  /-- The statement is not executed, and the call fails. -/
  | refuse
  /-- The statement is executed, but the call fails. -/
  | lose
  /-- The dead letter is sent, or it is not. -/
  | send (ok : Bool)
  deriving DecidableEq

namespace Phase

/-- The start of `_execute_with_retry`, if there is a handler. -/
def begin (value : Json) : Phase :=
  match value.dict?, recordScript value with
  | some payload, some sc => .trying payload ⟨sc, sc, MAX_RETRIES - 1⟩
  | _, _ => .idle

/-- The handler has raised. -/
def failed (payload : Dict Json) (w : Attempt) : Phase :=
  match w.retry with
  | some w => .trying payload w
  | none => .burying payload

/-- One call of a worker, and what it writes. -/
def next : Phase → Call → Option (Phase × List Write)
  | trying payload w, .write =>
    match w.rest with
    | .done => some (idle, [])
    | .fails => some (failed payload w, [])
    | .write stmt rest =>
      if stmt.accepted schema then some (trying payload { w with rest := rest }, [.execute stmt])
      else some (failed payload w, [])
  | trying payload w, .refuse =>
    match w.rest with
    | .write _ _ => some (failed payload w, [])
    | _ => none
  | trying payload w, .lose =>
    match w.rest with
    | .write stmt _ =>
      if stmt.accepted schema then some (failed payload w, [.execute stmt]) else none
    | _ => none
  | burying payload, .send ok =>
    some (idle, if ok then (letterOf payload).toList.map .bury else [])
  | _, _ => none

/-- What a call can do. -/
inductive Stepped : Phase → Call → Phase → List Write → Prop
  | done {payload : Dict Json} {w : Attempt} (hrest : w.rest = .done) :
      Stepped (trying payload w) .write idle []
  | wrote {payload : Dict Json} {w : Attempt} {stmt : Statement Table} {rest : Script}
      (hrest : w.rest = .write stmt rest) (hstmt : stmt.accepted schema) :
      Stepped (trying payload w) .write (trying payload { w with rest := rest }) [.execute stmt]
  | raised {payload : Dict Json} {w : Attempt} {c : Call}
      (hc : c = .refuse ∨ c = .write ∧ w.rest.completes = false ∧ w.rest.writes = []) :
      Stepped (trying payload w) c (failed payload w) []
  | lost {payload : Dict Json} {w : Attempt} {stmt : Statement Table} {rest : Script}
      (hrest : w.rest = .write stmt rest) :
      Stepped (trying payload w) .lose (failed payload w) [.execute stmt]
  | sent {payload : Dict Json} (ok : Bool) :
      Stepped (burying payload) (.send ok) idle
        (if ok then (letterOf payload).toList.map .bury else [])

/-- **Inversion of a call.** -/
theorem stepped_of_next {ph ph' : Phase} {c : Call} {ws : List Write}
    (h : ph.next c = some (ph', ws)) : Stepped ph c ph' ws := by
  rw [next.eq_def] at h
  split at h
  · next payload w =>
    split at h
    · next hrest =>
      obtain ⟨rfl, rfl⟩ := Prod.mk.inj (Option.some.inj h)
      exact .done hrest
    · next hrest =>
      obtain ⟨rfl, rfl⟩ := Prod.mk.inj (Option.some.inj h)
      exact .raised (.inr ⟨rfl, by rw [hrest]; rfl, by rw [hrest]; rfl⟩)
    · next stmt rest hrest =>
      split at h
      · next hstmt =>
        obtain ⟨rfl, rfl⟩ := Prod.mk.inj (Option.some.inj h)
        exact .wrote hrest hstmt
      · next hstmt =>
        obtain ⟨rfl, rfl⟩ := Prod.mk.inj (Option.some.inj h)
        exact .raised (.inr ⟨rfl, by simp [hrest, Script.completes, hstmt],
          by simp [hrest, Script.writes, hstmt]⟩)
  · split at h
    · obtain ⟨rfl, rfl⟩ := Prod.mk.inj (Option.some.inj h)
      exact .raised (.inl rfl)
    · cases h
  · split at h
    · next stmt rest hrest =>
      obtain ⟨-, h⟩ := Option.ite_none_right_eq_some.mp h
      obtain ⟨rfl, rfl⟩ := Prod.mk.inj (Option.some.inj h)
      exact .lost hrest
    · cases h
  · next payload ok =>
    obtain ⟨rfl, rfl⟩ := Prod.mk.inj (Option.some.inj h)
    exact .sent ok
  · cases h

end Phase

/-- The records that are left to a worker, and what it does. -/
structure Worker where
  log : List Message
  phase : Phase

inductive WorkerAction where
  /-- The next record. -/
  | take
  | call (c : Call)
  deriving DecidableEq

/-- One step of `_consume_loop`. -/
def Worker.next (w : Worker) : WorkerAction → Option (Worker × List Write)
  | .take =>
    match w.phase, w.log with
    | .idle, m :: log => some (⟨log, .begin m.payload⟩, [])
    | _, _ => none
  | .call c => (w.phase.next c).map fun r => ({ w with phase := r.1 }, r.2)

/-! ### The records of a worker -/

variable {ok : Call → Prop}

/-- The worker writes these for a record, if its calls end in one of these ways. -/
def Behaves (ok : Call → Prop) (value : Json) (ws : List Write) : Prop :=
  ∃ calls, (∀ c ∈ calls, ok c) ∧ emits Phase.next (.begin value) calls = some (.idle, ws)

theorem next_call {log : List Message} {ph ph' : Phase} {c : Call} {ws : List Write}
    (h : ph.next c = some (ph', ws)) :
    Worker.next ⟨log, ph⟩ (.call c) = some (⟨log, ph'⟩, ws) := by
  rw [Worker.next, h]
  rfl

theorem emits_calls {log : List Message} {ph ph' : Phase} {calls : List Call} {ws : List Write}
    (h : emits Phase.next ph calls = some (ph', ws)) :
    emits Worker.next ⟨log, ph⟩ (calls.map .call) = some (⟨log, ph'⟩, ws) := by
  induction calls generalizing ph ws with
  | nil =>
    obtain ⟨rfl, rfl⟩ := Prod.mk.inj (Option.some.inj h)
    rfl
  | cons c calls ih =>
    obtain ⟨ph₁, ws₁, ws₂, hnext, hrest, rfl⟩ := emits_cons.mp h
    exact emits_cons.mpr ⟨_, ws₁, ws₂, next_call hnext, ih hrest, rfl⟩

/-- **What a worker writes** is what it writes for its records, one after another. -/
theorem exists_blocks {log : List Message} {ph : Phase} {as : List WorkerAction} {ws : List Write}
    (hok : ∀ c, .call c ∈ as → ok c)
    (h : emits Worker.next ⟨log, ph⟩ as = some (⟨[], .idle⟩, ws)) :
    ∃ calls b bs, (∀ c ∈ calls, ok c) ∧ emits Phase.next ph calls = some (.idle, b) ∧
      List.Forall₂ (fun m b => Behaves ok m.payload b) log bs ∧ ws = b ++ bs.flatten := by
  induction as generalizing log ph ws with
  | nil =>
    obtain ⟨hw, rfl⟩ := Prod.mk.inj (Option.some.inj h)
    obtain ⟨rfl, rfl⟩ := Worker.mk.inj hw
    exact ⟨[], [], [], by simp, rfl, .nil, rfl⟩
  | cons a as ih =>
    obtain ⟨w, ws₁, ws₂, hnext, hrest, rfl⟩ := emits_cons.mp h
    have hok' : ∀ c, .call c ∈ as → ok c := fun c hc => hok c (List.mem_cons_of_mem a hc)
    cases a with
    | take =>
      rw [Worker.next] at hnext
      split at hnext
      · next m log' hph hlog =>
        obtain ⟨rfl, rfl⟩ := Prod.mk.inj (Option.some.inj hnext)
        obtain rfl : ph = .idle := hph
        obtain rfl : log = m :: log' := hlog
        obtain ⟨calls, b, bs, hcalls, hb, hbs, rfl⟩ := ih hok' hrest
        exact ⟨[], [], b :: bs, by simp, rfl, .cons ⟨calls, hcalls, hb⟩ hbs, rfl⟩
      · cases hnext
    | call c =>
      obtain ⟨⟨ph', ws'⟩, hc, heq⟩ := Option.map_eq_some_iff.mp hnext
      obtain ⟨rfl, rfl⟩ := Prod.mk.inj heq
      obtain ⟨calls, b, bs, hcalls, hb, hbs, rfl⟩ := ih hok' hrest
      exact ⟨c :: calls, ws' ++ b, bs,
        List.forall_mem_cons.mpr ⟨hok c List.mem_cons_self, hcalls⟩,
        emits_cons.mpr ⟨ph', ws', b, hc, hb, rfl⟩, hbs,
        (List.append_assoc ..).symm⟩

theorem emits_of_blocks {log : List Message} {bs : List (List Write)}
    (h : List.Forall₂ (fun m b => Behaves ok m.payload b) log bs) :
    ∃ as, (∀ c, .call c ∈ as → ok c) ∧
      emits Worker.next ⟨log, .idle⟩ as = some (⟨[], .idle⟩, bs.flatten) := by
  induction h with
  | nil => exact ⟨[], by simp, rfl⟩
  | @cons m b log bs hb _ ih =>
    obtain ⟨calls, hok, hcalls⟩ := hb
    obtain ⟨as, hok', has⟩ := ih
    have htake : Worker.next ⟨m :: log, .idle⟩ .take = some (⟨log, .begin m.payload⟩, []) := rfl
    refine ⟨.take :: (calls.map .call ++ as), fun c hc => ?_,
      emits_cons.mpr ⟨_, [], b ++ bs.flatten, htake,
      emits_append (emits_calls hcalls) has, rfl⟩⟩
    simp only [List.mem_cons, reduceCtorEq, List.mem_append, List.mem_map, false_or] at hc
    rcases hc with ⟨c', hc', heq⟩ | hc
    · exact WorkerAction.call.inj heq ▸ hok c' hc'
    · exact hok' c hc

/-! ### The conversation of a record -/

/-- The key of the record is its conversation. -/
def Keyed (m : Message) : Prop :=
  ∀ payload, m.payload.dict? = some payload → payload.lookup "conversation_id" = some (.str m.key)

/-- The statement is about the conversation. -/
def About (key : String) (stmt : Statement Table) : Prop :=
  stmt.bound.lookup "conversation_id" = some (.text key)

/-- A value that is read is known. -/
theorem Script.All.read_of {P : Statement Table → Prop} {α : Type} {rest : α → Script}
    {value : Option α} (h : ∀ a, value = some a → (rest a).All P) :
    (Script.read value rest).All P := by
  cases value with
  | none => exact .fails
  | some a => exact h a rfl

/-- The statements of a handler are about the conversation of the record. -/
theorem about_script {persist_type : String} {sc : Dict Json → Script}
    (h : script persist_type = some sc) {payload : Dict Json} {key : String}
    (hkey : payload.lookup "conversation_id" = some (.str key)) : (sc payload).All (About key) := by
  have hcell {c : Cell} (hc : requiredCell payload "conversation_id" = some c) : c = .text key := by
    rw [requiredCell, hkey] at hc
    exact (Option.some.inj hc).symm
  rw [script.eq_def] at h
  split at h
  · obtain rfl := Option.some.inj h
    refine .read (fun now => .read_of fun c hc => ?_) _
    obtain rfl := hcell hc
    refine .read (fun message_id => .read (fun sender_id => .read (fun sender_type => .read
      (fun content_type => .read (fun content => .read (fun seq => .write ?_ (.read (fun preview =>
      .write ?_ (.read (fun recipient => .write ?_ .done) _)) _)) _) _) _) _) _) _
    · exact rfl
    · exact rfl
    · exact rfl
  · obtain rfl := Option.some.inj h
    refine .read (fun now => .read (fun user_id => .read_of fun c hc => ?_) _) _
    obtain rfl := hcell hc
    exact .write rfl (.write rfl .done)
  · obtain rfl := Option.some.inj h
    refine .read (fun now => .read_of fun c hc => ?_) _
    obtain rfl := hcell hc
    exact .write rfl .done
  · obtain rfl := Option.some.inj h
    refine .read (fun now => .read_of fun c hc => ?_) _
    obtain rfl := hcell hc
    have hack (now : DateTime) (message_id ack_type' from_user_id : Cell) :
        About key (insertAck now (.text key) message_id ack_type' from_user_id) := rfl
    refine .read (fun message_id => .read (fun ack_type => .read (fun from_user_id => .read
      (fun ack_type' => .write (hack ..) ?_) _) _) _) _
    rw [readerScript.eq_def]
    split
    · exact .read (fun user_id => .write (show About key (updateUnread ..) from rfl) .done) _
    · exact .done
  · obtain rfl := Option.some.inj h
    refine .read (fun now => .read_of fun c hc => ?_) _
    obtain rfl := hcell hc
    exact .read (fun agent_id => .write (show About key (insertAssignment ..) from rfl) .done) _
  · cases h

theorem about_recordScript {m : Message} (hm : Keyed m) {sc : Script}
    (h : recordScript m.payload = some sc) : sc.All (About m.key) := by
  obtain ⟨payload, hpayload, h⟩ := Option.bind_eq_some_iff.mp h
  split at h
  · obtain ⟨sc, hsc, rfl⟩ := Option.map_eq_some_iff.mp h
    exact about_script hsc (hm payload hpayload)
  · cases h

/-- What the worker is at is about the conversation. -/
inductive Phase.On (key : String) : Phase → Prop
  | idle : Phase.On key .idle
  | trying {payload : Dict Json} {w : Attempt}
      (hpayload : payload.lookup "conversation_id" = some (.str key))
      (hscript : w.script.All (About key)) (hrest : w.rest.All (About key)) :
      Phase.On key (.trying payload w)
  | burying {payload : Dict Json}
      (hpayload : payload.lookup "conversation_id" = some (.str key)) :
      Phase.On key (.burying payload)

theorem on_failed {key : String} {payload : Dict Json} {w : Attempt}
    (hpayload : payload.lookup "conversation_id" = some (.str key))
    (hscript : w.script.All (About key)) : (Phase.failed payload w).On key := by
  rw [Phase.failed, Attempt.retry]
  split
  · next w' hw =>
    split at hw
    · cases hw
    · obtain rfl := Option.some.inj hw
      exact .trying hpayload hscript hscript
  · exact .burying hpayload

/-- The letter has the key of its record. -/
theorem key_of_mem_letter {key : String} {payload : Dict Json}
    (hpayload : payload.lookup "conversation_id" = some (.str key)) {ok : Bool} {w : Write}
    (hw : w ∈ if ok then (letterOf payload).toList.map Write.bury else []) :
    w.key = some (.text key) := by
  cases ok with
  | false => exact absurd hw List.not_mem_nil
  | true =>
    obtain ⟨letter, hletter, rfl⟩ := List.mem_map.mp hw
    rw [letterOf, optional, hpayload, Option.getD_some] at hletter
    split at hletter
    · next name v hname hv =>
      obtain rfl : key = name := Json.str.inj hname
      obtain rfl : letter = ⟨key, payload, MAX_RETRIES⟩ := by simpa using hletter
      rfl
    · exact absurd hletter (by simp)

theorem on_next {key : String} {ph ph' : Phase} {c : Call} {ws : List Write}
    (h : ph.next c = some (ph', ws)) (hon : ph.On key) :
    ph'.On key ∧ ∀ w ∈ ws, w.key = some (.text key) := by
  cases Phase.stepped_of_next h with
  | done hrest => exact ⟨.idle, fun w hw => absurd hw List.not_mem_nil⟩
  | wrote hrest hstmt =>
    cases hon with
    | trying hpayload hscript hall =>
      rw [hrest] at hall
      cases hall with
      | write habout hall =>
        exact ⟨.trying hpayload hscript hall, List.forall_mem_singleton.mpr habout⟩
  | raised hc =>
    cases hon with
    | trying hpayload hscript hall =>
      exact ⟨on_failed hpayload hscript, fun w hw => absurd hw List.not_mem_nil⟩
  | lost hrest =>
    cases hon with
    | trying hpayload hscript hall =>
      rw [hrest] at hall
      cases hall with
      | write habout hall =>
        exact ⟨on_failed hpayload hscript, List.forall_mem_singleton.mpr habout⟩
  | sent ok =>
    cases hon with
    | burying hpayload => exact ⟨.idle, fun w hw => key_of_mem_letter hpayload hw⟩

theorem on_emits {key : String} {ph ph' : Phase} {calls : List Call} {ws : List Write}
    (h : emits Phase.next ph calls = some (ph', ws)) (hon : ph.On key) :
    ∀ w ∈ ws, w.key = some (.text key) := by
  induction calls generalizing ph ws with
  | nil =>
    obtain ⟨-, rfl⟩ := Prod.mk.inj (Option.some.inj h)
    exact fun w hw => absurd hw List.not_mem_nil
  | cons c calls ih =>
    obtain ⟨ph₁, ws₁, ws₂, hnext, hrest, rfl⟩ := emits_cons.mp h
    obtain ⟨hon', hws₁⟩ := on_next hnext hon
    exact List.forall_mem_append.mpr ⟨hws₁, ih hrest hon'⟩

theorem on_begin {m : Message} (hm : Keyed m) : (Phase.begin m.payload).On m.key := by
  rw [Phase.begin]
  split
  · next payload sc hpayload hsc =>
    have hall := about_recordScript hm hsc
    exact .trying (hm payload hpayload) hall hall
  · exact .idle

/-- **A record is written to its conversation only.** -/
theorem key_of_behaves {m : Message} (hm : Keyed m) {b : List Write} (h : Behaves ok m.payload b) :
    ∀ w ∈ b, w.key = some (.text m.key) := by
  obtain ⟨calls, -, hcalls⟩ := h
  exact on_emits hcalls (on_begin hm)

/-! ### What the handlers publish -/

/-- A record of scalars is keyed by its conversation. -/
theorem keyed_of_scalars {record : List (String × Json)} (h : ∀ kv ∈ record, kv.2.Scalar)
    {c : String} (hc : (dictOf record).lookup "conversation_id" = some (.str c)) {v : Json}
    (hv : (Json.obj record).transit = some v) : Keyed ⟨CHAT_PERSIST, c, v⟩ := by
  obtain rfl := WritePath.eq_of_transit h hv
  intro payload hpayload
  obtain rfl : dictOf record = payload := Option.some.inj hpayload
  exact hc

/-- **What a handler publishes is keyed**, if its event names the conversation `c` that it is called
for. -/
theorem keyed_of_publish {env : Env} {agent_id : Option String} {e : Event} {c : String}
    (hc : e.conversation_id = c) {record : List (String × Json)}
    (h : .publish record ∈ e.ops env agent_id) {v : Json}
    (hv : (Json.obj record).transit = some v) : Keyed ⟨CHAT_PERSIST, c, v⟩ := by
  subst hc
  cases e with
  | chatStart event =>
    obtain rfl : record = chatStartRecord event := by
      simpa [Event.ops, chatStartOps] using h
    exact keyed_of_scalars (by simp [chatStartRecord]) rfl hv
  | incomingMessage event =>
    obtain rfl : record = incomingMessageRecord event := by
      simpa [Event.ops, Event.record] using h
    exact keyed_of_scalars (by simp [incomingMessageRecord]) rfl hv
  | outgoingMessage event =>
    obtain rfl : record = outgoingMessageRecord event := by
      simpa [Event.ops, Event.record] using h
    exact keyed_of_scalars (by simp [outgoingMessageRecord]) rfl hv
  | transferToAgent event =>
    cases agent_id with
    | none => exact absurd h List.not_mem_nil
    | some agent_id =>
      obtain rfl : record = assignmentRecord event agent_id := by
        simpa [Event.ops, transferToAgentOps] using h
      exact keyed_of_scalars (by simp [assignmentRecord]) rfl hv
  | chatEnd event =>
    obtain rfl : record = chatEndRecord event := by
      simpa [Event.ops, Event.record] using h
    exact keyed_of_scalars (by simp [chatEndRecord]) rfl hv
  | ack event =>
    obtain rfl : record = ackRecord event := by
      simpa [Event.ops, Event.record] using h
    exact keyed_of_scalars (by simp [ackRecord]) rfl hv

/-! ### The order of the writes -/

/-- The databases are the same, and so are the dead letters of each key, in their order. -/
structure Written.Same (s t : Written) : Prop where
  db : s.db = t.db
  deadLetters : ∀ key, s.deadLetters.filter (fun letter => letter.key = key) =
    t.deadLetters.filter fun letter => letter.key = key

theorem db_perform (s : Written) (ws : List Write) : (perform Written.apply s ws).db =
    perform (Database.apply schema) s.db (ws.filterMap Write.statement?) := by
  induction ws generalizing s with
  | nil => rfl
  | cons w ws ih =>
    rw [perform_cons, ih]
    cases w with
    | execute stmt => rfl
    | bury letter => rfl

theorem deadLetters_perform (s : Written) (ws : List Write) :
    (perform Written.apply s ws).deadLetters = s.deadLetters ++ ws.filterMap Write.letter? := by
  induction ws generalizing s with
  | nil => exact (List.append_nil _).symm
  | cons w ws ih =>
    rw [perform_cons, ih]
    cases w with
    | execute stmt => rfl
    | bury letter => exact List.append_assoc ..

theorem filter_statements (k : Option Cell) (ws : List Write) :
    (ws.filterMap Write.statement?).filter
        (fun stmt => stmt.bound.lookup "conversation_id" = k) =
      (ws.filter fun w => w.key = k).filterMap Write.statement? := by
  refine filter_filterMap_of fun w _ stmt hw => ?_
  cases w with
  | execute st => rw [← Option.some.inj hw, Write.key]
  | bury letter => cases hw

theorem filter_letters (key : String) (ws : List Write) :
    (ws.filterMap Write.letter?).filter (fun letter => letter.key = key) =
      (ws.filter fun w => w.key = some (.text key)).filterMap Write.letter? := by
  refine filter_filterMap_of fun w _ letter hw => ?_
  cases w with
  | execute stmt => cases hw
  | bury letter' => simp [← Option.some.inj hw, Write.key]

/-- **Only the order within a conversation matters.** -/
theorem same_of_sameByKey {vs ws : List Write} (h : SameByKey Write.key vs ws) (s : Written) :
    (perform Written.apply s vs).Same (perform Written.apply s ws) where
  db := by
    rw [db_perform, db_perform]
    have hcomm (v w : Statement Table)
        (hne : v.bound.lookup "conversation_id" ≠ w.bound.lookup "conversation_id") :
        Commute (Database.apply schema) v w := commute_of_lookup_ne conversation_id_mem_key hne
    refine perform_eq_of_sameByKey hcomm (fun k => ?_) s.db
    rw [filter_statements, filter_statements, h]
  deadLetters key := by
    rw [deadLetters_perform, deadLetters_perform, List.filter_append, List.filter_append,
      filter_letters, filter_letters, h]

/-! ### The group -/

/-- The workers, one for each partition, and what they have written. -/
abbrev Group (P : Type) : Type := State P Worker Written

section Group

variable {P : Type} [DecidableEq P]

/-- One step of one of the workers. -/
def Group.step : Group P → P × WorkerAction → Option (Group P) :=
  Interleaving.step Worker.next Written.apply

/-- Nothing is consumed yet. The partition of a record is determined by its key. -/
def Group.start (db : Database Table) (part : String → P) (topic : List Message) : Group P where
  store := ⟨db, []⟩
  writers p := ⟨topic.filter fun m => part m.key = p, .idle⟩

/-- All records are consumed. -/
def Group.Finished (s : Group P) : Prop := ∀ p, s.writers p = ⟨[], .idle⟩

/-- The partition of a write. -/
def owner (part : String → P) : Option Cell → P
  | some (.text c) => part c
  | _ => part ""

/-- A write is about the conversation of a record. -/
theorem exists_key_of_mem {log : List Message} (hkeyed : ∀ m ∈ log, Keyed m)
    {bs : List (List Write)} (h : List.Forall₂ (fun m b => Behaves ok m.payload b) log bs)
    {w : Write} (hw : w ∈ bs.flatten) : ∃ m ∈ log, w.key = some (.text m.key) := by
  induction h with
  | nil => exact absurd hw List.not_mem_nil
  | @cons m b log bs hb _ ih =>
    rw [List.forall_mem_cons] at hkeyed
    rcases List.mem_append.mp hw with hw | hw
    · exact ⟨m, List.mem_cons_self, key_of_behaves hkeyed.1 hb w hw⟩
    · obtain ⟨m', hm', hkey⟩ := ih hkeyed.2 hw
      exact ⟨m', List.mem_cons_of_mem m hm', hkey⟩

theorem filter_key_eq_nil {log : List Message} (hkeyed : ∀ m ∈ log, Keyed m)
    {bs : List (List Write)} (h : List.Forall₂ (fun m b => Behaves ok m.payload b) log bs)
    {k : Option Cell} (hk : ¬∃ c, k = some (.text c)) :
    bs.flatten.filter (fun w => w.key = k) = [] := by
  refine List.filter_eq_nil_iff.mpr fun w hw heq => hk ?_
  obtain ⟨m, -, hkey⟩ := exists_key_of_mem hkeyed h hw
  exact ⟨m.key, (of_decide_eq_true heq).symm.trans hkey⟩

/-- What the workers write for their records, put into the order of the topic. -/
theorem exists_merge (part : String → P) {topic : List Message} (hkeyed : ∀ m ∈ topic, Keyed m)
    {B : P → List (List Write)}
    (hB : ∀ p, List.Forall₂ (fun m b => Behaves ok m.payload b)
      (topic.filter fun m => part m.key = p) (B p)) :
    ∃ bs, List.Forall₂ (fun m b => Behaves ok m.payload b) topic bs ∧
      ∀ c, bs.flatten.filter (fun w => w.key = some (.text c)) =
        (B (part c)).flatten.filter fun w => w.key = some (.text c) := by
  induction topic generalizing B with
  | nil =>
    refine ⟨[], .nil, fun c => ?_⟩
    have hnil := hB (part c)
    rw [List.filter_nil, List.forall₂_nil_left_iff] at hnil
    rw [hnil]
  | cons m topic ih =>
    rw [List.forall_mem_cons] at hkeyed
    have hm := hB (part m.key)
    rw [List.filter_cons_of_pos (by simp)] at hm
    obtain ⟨b, bs₀, hb, hbs₀, hcons⟩ := List.forall₂_cons_left_iff.mp hm
    have hB' : ∀ p, List.Forall₂ (fun m b => Behaves ok m.payload b)
        (topic.filter fun m => part m.key = p) (Function.update B (part m.key) bs₀ p) := by
      intro p
      by_cases hp : p = part m.key
      · rw [hp, Function.update_self]
        exact hbs₀
      · have hrest := hB p
        rw [List.filter_cons_of_neg (by simpa using Ne.symm hp)] at hrest
        rwa [Function.update_of_ne hp]
    obtain ⟨bs, hbs, hfilter⟩ := ih hkeyed.2 hB'
    refine ⟨b :: bs, .cons hb hbs, fun c => ?_⟩
    rw [List.flatten_cons, List.filter_append, hfilter]
    by_cases hc : part c = part m.key
    · rw [hc, Function.update_self, hcons, List.flatten_cons, List.filter_append]
    · -- the record is in another partition, so it is another conversation's
      have hnone : b.filter (fun w => w.key = some (.text c)) = [] := by
        refine List.filter_eq_nil_iff.mpr fun w hw => ?_
        have hne : m.key ≠ c := fun heq => hc (congrArg part heq.symm)
        simpa [key_of_behaves hkeyed.1 hb w hw] using hne
      rw [Function.update_of_ne hc, hnone, List.nil_append]

/-- The writes of a group, in the order of the topic. -/
theorem exists_blocks_of_run {part : String → P} {topic : List Message}
    (hkeyed : ∀ m ∈ topic, Keyed m) {db : Database Table} {schedule : List (P × WorkerAction)}
    {s : Group P} (h : Transition.run Group.step (Group.start db part topic) schedule = some s)
    (hok : ∀ p c, (p, .call c) ∈ schedule → ok c) (hdone : s.Finished) :
    ∃ bs, List.Forall₂ (fun m b => Behaves ok m.payload b) topic bs ∧
      s.store.Same (perform Written.apply ⟨db, []⟩ bs.flatten) := by
  obtain ⟨W, hstore, hwriters⟩ := exists_of_run h
  have hblocks (p : P) : ∃ bs, List.Forall₂ (fun m b => Behaves ok m.payload b)
      (topic.filter fun m => part m.key = p) bs ∧ of p W = bs.flatten := by
    have hp := hwriters p
    rw [hdone p] at hp
    have hcalls (c : Call) (hc : .call c ∈ of p schedule) : ok c := hok p c (mem_of.mp hc)
    obtain ⟨calls, b, bs, -, hb, hbs, hW⟩ := exists_blocks hcalls hp
    obtain rfl : b = [] := by
      cases calls with
      | nil => exact (Prod.mk.inj (Option.some.inj hb)).2.symm
      | cons c calls => cases hb
    exact ⟨bs, hbs, hW⟩
  choose B hB hof using hblocks
  obtain ⟨bs, hbs, hfilter⟩ := exists_merge part hkeyed hB
  have hsame : SameByKey Write.key (W.map Prod.snd) bs.flatten := by
    intro k
    have hpart : ∀ p, ∀ w ∈ of p W, owner part w.key = p := by
      intro p w hw
      rw [hof] at hw
      obtain ⟨m, hm, hkey⟩ := exists_key_of_mem (fun m hm => hkeyed m (List.mem_filter.mp hm).1)
        (hB p) hw
      rw [hkey]
      exact of_decide_eq_true (List.mem_filter.mp hm).2
    rw [filter_key_of hpart, hof]
    by_cases hk : ∃ c, k = some (.text c)
    · obtain ⟨c, rfl⟩ := hk
      exact (hfilter c).symm
    · rw [filter_key_eq_nil (fun m hm => hkeyed m (List.mem_filter.mp hm).1) (hB _) hk,
        filter_key_eq_nil hkeyed hbs hk]
  refine ⟨bs, hbs, ?_⟩
  rw [hstore]
  exact same_of_sameByKey hsame _

/-- **A group does what one worker can do.** Calls fail for it as they do for the group. -/
theorem single_worker_of_group {part : String → P} {topic : List Message}
    (hkeyed : ∀ m ∈ topic, Keyed m) {db : Database Table} {schedule : List (P × WorkerAction)}
    {s : Group P} (h : Transition.run Group.step (Group.start db part topic) schedule = some s)
    (hdone : s.Finished) :
    ∃ (schedule' : List (Unit × WorkerAction)) (t : Group Unit),
      Transition.run Group.step (Group.start db (fun _ => ()) topic) schedule' = some t ∧
      t.Finished ∧ s.store.Same t.store ∧
      ∀ c, ((), .call c) ∈ schedule' → ∃ p, (p, .call c) ∈ schedule := by
  have hcalls (p : P) (c : Call) (hc : (p, .call c) ∈ schedule) :
      ∃ p, (p, WorkerAction.call c) ∈ schedule := ⟨p, hc⟩
  obtain ⟨bs, hbs, hsame⟩ := exists_blocks_of_run hkeyed h hcalls hdone
  obtain ⟨as, hok, has⟩ := emits_of_blocks hbs
  let s₀ : Group Unit := Group.start db (fun _ => ()) topic
  have hlog : s₀.writers () = ⟨topic, .idle⟩ := by
    simp [s₀, Group.start]
  have hrun : Transition.run Group.step s₀ (as.map fun a => ((), a)) = some _ :=
    run_of_emits (s := s₀) (p := ()) (hlog ▸ has)
  refine ⟨_, _, hrun, fun _ => ?_, hsame, fun c hc => ?_⟩
  · exact Function.update_self () (⟨[], .idle⟩ : Worker) s₀.writers
  · obtain ⟨a, ha, heq⟩ := List.mem_map.mp hc
    exact hok c ((Prod.mk.inj heq).2 ▸ ha)

end Group

/-- The record of a chat that has ended at 0. -/
def chatEnded (c : String) : Message := ⟨CHAT_PERSIST, c, .obj (chatEndRecord ⟨c, "", 0⟩)⟩

theorem keyed_chatEnded (c : String) : Keyed (chatEnded c) :=
  keyed_of_scalars (by simp [chatEndRecord]) rfl
    (Json.transit_of_carried (by simp [chatEndRecord])
      (by simp [chatEndRecord, Json.Carried, Json.Wide]))

/-- Two chats have ended. Their workers take turns, and the answer to one statement is lost. -/
def turns : List (Bool × WorkerAction) :=
  [(true, .take), (false, .take), (true, .call .lose), (false, .call .write),
    (true, .call .write), (false, .call .write), (true, .call .write)]

def afterTurns : Group Bool :=
  (Transition.run Group.step
    (Group.start .empty (fun c => c == "a") [chatEnded "a", chatEnded "b"]) turns).get rfl

/-- The answer to a statement of the first chat is lost while the second one is written. -/
theorem single_worker_of_turns :
    ∃ (schedule' : List (Unit × WorkerAction)) (t : Group Unit),
      Transition.run Group.step (Group.start .empty (fun _ => ()) [chatEnded "a", chatEnded "b"])
        schedule' = some t ∧ t.Finished ∧ afterTurns.store.Same t.store ∧
      ∀ c, ((), .call c) ∈ schedule' → ∃ p, (p, .call c) ∈ turns := by
  have hr : Transition.run Group.step
      (Group.start .empty (fun c => c == "a") [chatEnded "a", chatEnded "b"]) turns =
      some afterTurns := (Option.some_get _).symm
  exact single_worker_of_group (by simp [keyed_chatEnded]) hr fun p => by cases p <;> rfl

/-! ### No call fails -/

/-- The call does not fail. -/
def Call.Plain (c : Call) : Prop := c = .write ∨ c = .send true

/-- The dead letter of a record, when no call fails. -/
def recordLetters (value : Json) : List DeadLetter :=
  match value.dict?, recordScript value with
  | some payload, some sc => if sc.completes then [] else (letterOf payload).toList
  | _, _ => []

/-- What is left to write, when no call fails. -/
def Phase.left : Phase → List (Statement Table)
  | .idle | .burying _ => []
  | .trying _ w => w.rest.writes ++
      if w.rest.completes then [] else (List.replicate w.left w.script.writes).flatten

/-- What is left to bury. -/
def Phase.letters : Phase → List DeadLetter
  | .idle => []
  | .trying payload w => if w.rest.completes then [] else (letterOf payload).toList
  | .burying payload => (letterOf payload).toList

/-- An attempt ends as the whole script does. -/
def Phase.Even : Phase → Prop
  | .idle | .burying _ => True
  | .trying _ w => w.rest.completes = w.script.completes

theorem left_failed {payload : Dict Json} {w : Attempt} (heven : (Phase.trying payload w).Even)
    (hc : w.rest.completes = false) :
    (Phase.failed payload w).left = (List.replicate w.left w.script.writes).flatten ∧
      (Phase.failed payload w).letters = (letterOf payload).toList ∧
      (Phase.failed payload w).Even := by
  have hscript : w.script.completes = false := heven.symm.trans hc
  rw [Phase.failed, Attempt.retry]
  cases hleft : w.left with
  | zero => exact ⟨by simp [Phase.left], rfl, trivial⟩
  | succ n =>
    refine ⟨?_, by simp [Phase.letters, hscript], rfl⟩
    simp [Phase.left, hscript, List.replicate_succ]

/-- A call that does not fail writes the next of what is left. -/
theorem left_of_next {ph ph' : Phase} {c : Call} {ws : List Write}
    (h : ph.next c = some (ph', ws)) (hc : c.Plain) (heven : ph.Even) :
    ph.left = ws.filterMap Write.statement? ++ ph'.left ∧
      ph.letters = ws.filterMap Write.letter? ++ ph'.letters ∧ ph'.Even := by
  cases Phase.stepped_of_next h with
  | done hrest =>
    refine ⟨?_, ?_, trivial⟩
    · simp [Phase.left, hrest, Script.writes, Script.completes]
    · simp [Phase.letters, hrest, Script.completes]
  | @wrote payload w stmt rest hrest hstmt =>
    have hcompletes : w.rest.completes = rest.completes := by
      simp [hrest, Script.completes, hstmt]
    refine ⟨?_, ?_, ?_⟩
    · rw [Phase.left, Phase.left, hcompletes, hrest, Script.writes_of_accepted hstmt]
      rfl
    · rw [Phase.letters, Phase.letters, hcompletes]
      rfl
    · rw [Phase.Even, ← hcompletes]
      exact heven
  | raised hraise =>
    obtain rfl | ⟨-, hcompletes, hwrites⟩ := hraise
    · rcases hc with hc | hc <;> cases hc
    · obtain ⟨hleft, hletters, heven'⟩ := left_failed heven hcompletes
      refine ⟨?_, ?_, heven'⟩
      · rw [hleft, Phase.left, hcompletes, hwrites]
        rfl
      · rw [hletters, Phase.letters, hcompletes]
        rfl
  | lost hrest => rcases hc with hc | hc <;> cases hc
  | @sent payload ok =>
    obtain rfl : ok = true := by
      rcases hc with hc | hc
      · cases hc
      · exact Call.send.inj hc
    refine ⟨?_, ?_, trivial⟩
    · cases hletter : letterOf payload <;> simp [Phase.left, Write.statement?]
    · cases hletter : letterOf payload <;> simp [Phase.letters, hletter, Write.letter?]

theorem left_of_emits {ph : Phase} {calls : List Call} {ws : List Write}
    (h : emits Phase.next ph calls = some (.idle, ws)) (hcalls : ∀ c ∈ calls, c.Plain)
    (heven : ph.Even) :
    ws.filterMap Write.statement? = ph.left ∧ ws.filterMap Write.letter? = ph.letters := by
  induction calls generalizing ph ws with
  | nil =>
    obtain ⟨rfl, rfl⟩ := Prod.mk.inj (Option.some.inj h)
    exact ⟨rfl, rfl⟩
  | cons c calls ih =>
    rw [List.forall_mem_cons] at hcalls
    obtain ⟨ph₁, ws₁, ws₂, hnext, hrest, rfl⟩ := emits_cons.mp h
    obtain ⟨hleft, hletters, heven'⟩ := left_of_next hnext hcalls.1 heven
    obtain ⟨hstatements, hletters'⟩ := ih hrest hcalls.2 heven'
    rw [List.filterMap_append, List.filterMap_append, hstatements, hletters', hleft, hletters]
    exact ⟨rfl, rfl⟩

/-- **What a record becomes**, when no call fails. -/
theorem writes_of_behaves {v : Json} {b : List Write} (h : Behaves Call.Plain v b) :
    b.filterMap Write.statement? = recordWrites schema v ∧
      b.filterMap Write.letter? = recordLetters v := by
  obtain ⟨calls, hplain, hcalls⟩ := h
  have hbegin : (Phase.begin v).left = recordWrites schema v ∧
      (Phase.begin v).letters = recordLetters v ∧ (Phase.begin v).Even := by
    rw [Phase.begin, recordWrites, recordLetters]
    cases hpayload : v.dict? with
    | none =>
      have hsc : recordScript v = none := by rw [recordScript, hpayload, Option.bind_none]
      rw [hsc]
      exact ⟨rfl, rfl, trivial⟩
    | some payload =>
      cases hsc : recordScript v with
      | none => exact ⟨rfl, rfl, trivial⟩
      | some sc =>
        refine ⟨?_, rfl, rfl⟩
        simp only [Phase.left, Script.completesIn_schema, Script.writesIn_schema]
        cases sc.completes with
        | true => simp
        | false => simp [MAX_RETRIES, List.replicate_succ]
  obtain ⟨hleft, hletters⟩ := left_of_emits hcalls hplain hbegin.2.2
  exact ⟨hleft.trans hbegin.1, hletters.trans hbegin.2.1⟩

/-- All attempts, when no call fails. -/
theorem run_attempt {handler : Dict Json → Step Unit} {payload : Dict Json} {sc : Script}
    (h : Follows (handler payload) sc) (n : ℕ) {s : Store} (hs : s.faults = []) :
    ((attempt handler payload (n + 1)).run s).2 = { s with
      db := perform (Database.apply schema) s.db
        (if sc.completes then sc.writes else (List.replicate (n + 1) sc.writes).flatten)
      deadLetters := s.deadLetters ++ if sc.completes then [] else (letterOf payload).toList } := by
  induction n generalizing s with
  | zero =>
    obtain ⟨r, hrun, hok⟩ := run_handler h hs
    cases r with
    | ok u => rw [run_attempt_of_ok hrun, ← hok]; simp [Except.isOk, Except.toBool]
    | error e =>
      rw [run_attempt_of_error hrun, ← hok, attempt, run_sendToDlq]
      simp [Except.isOk, Except.toBool]
  | succ n ih =>
    obtain ⟨r, hrun, hok⟩ := run_handler h hs
    cases r with
    | ok u => rw [run_attempt_of_ok hrun, ← hok]; simp [Except.isOk, Except.toBool]
    | error e =>
      have hc : sc.completes = false := hok.symm
      have hs' : (⟨perform (Database.apply schema) s.db sc.writes, s.faults, s.deadLetters⟩ :
          Store).faults = [] := hs
      rw [run_attempt_of_error hrun, ih hs', hc]
      simp [List.replicate_succ, perform_append]

theorem run_consume (v : Json) {s : Store} (hs : s.faults = []) :
    ((consume v).run s).2 = { s with
      db := perform (Database.apply schema) s.db (recordWrites schema v)
      deadLetters := s.deadLetters ++ recordLetters v } := by
  cases hpayload : v.dict? with
  | none => simp [consume, recordWrites, recordLetters, recordScript, hpayload]
  | some payload =>
    obtain ⟨hnone, hhandler⟩ | ⟨handler, sc, hhandler, hsc, hfollows⟩ :=
      WritePath.recordScript_cases hpayload
    · simp only [consume, hpayload, recordWrites, recordLetters, hnone, perform_nil,
        List.append_nil]
      split
      · rfl
      · rfl
      · next handler h => exact absurd h (hhandler handler)
    · simp only [consume, hpayload, hhandler, recordWrites, recordLetters, hsc, executeWithRetry,
        Script.completesIn_schema, Script.writesIn_schema]
      exact run_attempt hfollows 2 hs

/-- The records of a log, one after another. -/
def consumeAll (s : Store) (log : List Message) : Store :=
  log.foldl (fun s m => ((consume m.payload).run s).2) s

theorem same_consumeAll {log : List Message} {bs : List (List Write)}
    (h : List.Forall₂ (fun m b => Behaves Call.Plain m.payload b) log bs) {s : Store}
    (hs : s.faults = []) : perform Written.apply ⟨s.db, s.deadLetters⟩ bs.flatten =
      ⟨(consumeAll s log).db, (consumeAll s log).deadLetters⟩ := by
  induction h generalizing s with
  | nil => rfl
  | @cons m b log bs hb _ ih =>
    obtain ⟨hstatements, hletters⟩ := writes_of_behaves hb
    have hm := run_consume m.payload hs
    have hblock : perform Written.apply ⟨s.db, s.deadLetters⟩ b =
        ⟨((consume m.payload).run s).2.db, ((consume m.payload).run s).2.deadLetters⟩ := by
      refine Written.ext ?_ ?_
      · rw [db_perform, hstatements, hm]
      · rw [deadLetters_perform, hletters, hm]
    rw [List.flatten_cons, perform_append, hblock, ih (by rw [hm]; exact hs)]
    rfl

/-- **When no call fails, a group does what `consume` does** to the records of the topic, one after
another and in their order. -/
theorem group_eq_consume {P : Type} [DecidableEq P] {part : String → P} {topic : List Message}
    (hkeyed : ∀ m ∈ topic, Keyed m) {db : Database Table} {schedule : List (P × WorkerAction)}
    {s : Group P} (h : Transition.run Group.step (Group.start db part topic) schedule = some s)
    (hplain : ∀ p c, (p, .call c) ∈ schedule → c.Plain) (hdone : s.Finished) :
    s.store.Same ⟨(consumeAll ⟨db, [], []⟩ topic).db,
      (consumeAll ⟨db, [], []⟩ topic).deadLetters⟩ := by
  obtain ⟨bs, hbs, hsame⟩ := exists_blocks_of_run hkeyed h hplain hdone
  rwa [same_consumeAll (s := ⟨db, [], []⟩) hbs rfl] at hsame

/-- The two workers take turns, and no call fails. -/
def plainTurns : List (Bool × WorkerAction) :=
  [(true, .take), (false, .take), (false, .call .write), (true, .call .write),
    (true, .call .write), (false, .call .write)]

theorem plainTurns_eq_consume :
    ((Transition.run Group.step
      (Group.start .empty (fun c => c == "a") [chatEnded "a", chatEnded "b"])
      plainTurns).get rfl).store.Same
        ⟨(consumeAll ⟨.empty, [], []⟩ [chatEnded "a", chatEnded "b"]).db,
          (consumeAll ⟨.empty, [], []⟩ [chatEnded "a", chatEnded "b"]).deadLetters⟩ :=
  group_eq_consume (by simp [keyed_chatEnded]) (Option.some_get _).symm
    (fun p c hc => by
      simp only [plainTurns, List.mem_cons, Prod.mk.injEq, WorkerAction.call.injEq, reduceCtorEq,
        and_false, false_or, List.not_mem_nil, or_false] at hc
      exact .inl (by tauto))
    fun p => by cases p <;> rfl

end Persistence

end TitanChat
