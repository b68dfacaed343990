import TitanChat.Isolation
import TitanChat.PersistenceGroup
import TitanChat.WorkerOrder

/-!
# Handlers that run at the same time

The consumer has a worker for each conversation so that the handlers of different conversations can
wait for the database at the same time. While one waits, others execute statements and publish
records, and any of them may raise half-way.

None of this shows in Cassandra or in `chat-persist`. A conversation has one handler at a time, a
handler is about its own conversation, and no two statements of different conversations are on one
row. So what is stored is what the handlers would have stored one after another, in the order in
which they were called. The records are the same conversation by conversation, which is all that
matters to a partition.

It takes payloads that name the conversation of their key: a handler goes by the payload, its worker
by the key. Redis is not part of this, since agents are shared between conversations.

## Main definitions

* `Item.ops`: the operations of the handler of an item
* `Writing`, `Writing.step`: the consumer with what its handlers store
* `NamesKey`: the assumption
* `Stored.Same`: the same rows, and the same records of each conversation

## Main results

* `performs_item`: a handler and its operations
* `Serial.step`: the invariant
* `serial_of_run`: the handlers one after another
-/

namespace TitanChat

open WideColumn Replay Interleaving Handlers Persistence

namespace Handlers

/-! ### What is stored for a conversation -/

/-- The conversation that a record of `chat-persist` names. -/
def recordConversation (v : Json) : Option String :=
  match v.dict?.bind fun payload => payload.lookup "conversation_id" with
  | some (.str c) => some c
  | _ => none

/-- The operation is about the conversation. -/
def Op.Concerns (c : String) : Op → Prop
  | .execute stmt => About c stmt
  | .publish record => ∀ v, (Json.obj record).transit = some v → recordConversation v = some c

def Op.statement? : Op → Option (Statement Table)
  | .execute stmt => some stmt
  | .publish _ => none

/-- The record as it arrives. -/
def Op.record? : Op → Option Json
  | .execute _ => none
  | .publish record => (Json.obj record).transit

/-- An operation that has no effect if it raises. -/
def Stored.apply (s : Stored) (op : Op) : Stored := (s.perform op).getD s

/-- The rows are the same, and so are the records of each conversation, in their order. -/
structure Stored.Same (s t : Stored) : Prop where
  db : s.db = t.db
  records : ∀ c, s.records.filter (fun v => recordConversation v = some c) =
    t.records.filter fun v => recordConversation v = some c

/-- **A handler is about the conversation of its event.** -/
theorem concerns_of_mem {env : Env} {agent_id : Option String} {e : Event} {op : Op}
    (h : op ∈ e.ops env agent_id) : op.Concerns e.conversation_id := by
  cases op with
  | publish record =>
    intro v hv
    obtain ⟨kvs, -, rfl⟩ := Option.map_eq_some_iff.mp (Json.carry_of_transit hv)
    have hkeyed := keyed_of_publish rfl h hv _ rfl
    simp only [recordConversation, Json.dict?, Option.bind_some] at hkeyed ⊢
    rw [hkeyed]
  | execute stmt =>
    cases e with
    | chatStart event =>
      simp only [Event.ops, chatStartOps, List.mem_cons, List.mem_append, List.not_mem_nil,
        reduceCtorEq, or_false, Op.execute.injEq] at h
      obtain rfl | h := h
      · exact rfl
      · split at h
        · obtain rfl : stmt = insertConversationByBot env event := by simpa using h
          exact rfl
        · exact absurd h List.not_mem_nil
    | transferToAgent event =>
      cases agent_id with
      | none => exact absurd h List.not_mem_nil
      | some agent_id =>
        obtain rfl : stmt = assignConversation event.conversation_id agent_id := by
          simpa [Event.ops, transferToAgentOps] using h
        exact rfl
    | _ => simp [Event.ops] at h

section Apply

variable {s : Stored}

theorem db_applied (s : Stored) (ops : List Op) : (Replay.perform Stored.apply s ops).db =
    Replay.perform (Database.apply schema) s.db (ops.filterMap Op.statement?) := by
  induction ops generalizing s with
  | nil => rfl
  | cons op ops ih =>
    rw [perform_cons, ih, Stored.apply]
    cases op with
    | execute stmt => rw [WritePath.perform_execute]; rfl
    | publish record => rw [WritePath.perform_publish]; rfl

theorem records_applied (s : Stored) (ops : List Op) : (Replay.perform Stored.apply s ops).records =
    s.records ++ ops.filterMap Op.record? := by
  induction ops generalizing s with
  | nil => exact (List.append_nil _).symm
  | cons op ops ih =>
    rw [perform_cons, ih, Stored.apply]
    cases op with
    | execute stmt => rw [WritePath.perform_execute]; rfl
    | publish record =>
      rw [WritePath.perform_publish, List.filterMap_cons, List.append_assoc]
      simp only [Op.record?]
      cases (Json.obj record).transit <;> rfl

/-- Operations that are labelled with the conversation that they are about. -/
def Labelled (W : List (String × Op)) : Prop := ∀ x ∈ W, x.2.Concerns x.1

theorem filter_statements_of {W : List (String × Op)} (h : Labelled W) (k : Option Cell) :
    ((W.map Prod.snd).filterMap Op.statement?).filter
        (fun stmt => stmt.bound.lookup "conversation_id" = k) =
      (W.filter fun x => some (.text x.1) = k).filterMap fun x => x.2.statement? := by
  rw [List.filterMap_map]
  refine filter_filterMap_of fun x hx stmt hstmt => ?_
  obtain ⟨c, op⟩ := x
  have hconcerns := h _ hx
  cases op with
  | publish record => cases hstmt
  | execute st =>
    obtain rfl := Option.some.inj hstmt
    have hlookup : st.bound.lookup "conversation_id" = some (.text c) := hconcerns
    rw [hlookup]

theorem filter_records_of {W : List (String × Op)} (h : Labelled W) (c : String) :
    ((W.map Prod.snd).filterMap Op.record?).filter (fun v => recordConversation v = some c) =
      (W.filter fun x => x.1 = c).filterMap fun x => x.2.record? := by
  rw [List.filterMap_map]
  refine filter_filterMap_of fun x hx v hv => ?_
  obtain ⟨c', op⟩ := x
  have hconcerns := h _ hx
  cases op with
  | execute st => cases hv
  | publish record =>
    have hrecord : recordConversation v = some c' := hconcerns v hv
    rw [hrecord]
    simp

/-- **Only the order within a conversation matters.** -/
theorem same_of_labelled {V W : List (String × Op)} (hV : Labelled V) (hW : Labelled W)
    (h : SameByKey Prod.fst V W) (s : Stored) :
    (Replay.perform Stored.apply s (V.map Prod.snd)).Same
      (Replay.perform Stored.apply s (W.map Prod.snd)) where
  db := by
    rw [db_applied, db_applied]
    have hcomm (v w : Statement Table)
        (hne : v.bound.lookup "conversation_id" ≠ w.bound.lookup "conversation_id") :
        Commute (Database.apply schema) v w := commute_of_lookup_ne conversation_id_mem_key hne
    refine perform_eq_of_sameByKey hcomm (fun k => ?_) s.db
    rw [filter_statements_of hV, filter_statements_of hW]
    by_cases hk : ∃ c, k = some (.text c)
    · obtain ⟨c, rfl⟩ := hk
      simp only [Option.some.injEq, Cell.text.injEq, h c]
    · have hnone : ∀ X : List (String × Op),
          (X.filter fun x => some (.text x.1) = k) = [] := by
        intro X
        refine List.filter_eq_nil_iff.mpr fun x _ hx => hk ⟨x.1, ?_⟩
        exact (of_decide_eq_true hx).symm
      rw [hnone, hnone]
  records c := by
    rw [records_applied, records_applied, List.filter_append, List.filter_append,
      filter_records_of hV, filter_records_of hW, h c]

end Apply

end Handlers

namespace Consumer

/-! ### The consumer and its handlers -/

/-- The operations of the handler that `_dispatch` calls for an item. -/
def Item.ops (env : Env) (agent_id : Option String) (item : Item) : List Op :=
  match item.value.dict? with
  | none => []
  | some payload =>
    match select payload with
    | .handler e => ((Event.parse env.parsing payload e).map (Event.ops env agent_id)).getD []
    | _ => []

/-- The handler of an item performs a part of its operations, for some agent. -/
theorem performs_item {env : Env} {key : String} {item : Item} {payload : Dict Json}
    {e : EventType} (hdict : item.value.dict? = some payload)
    (hselect : select payload = .handler e)
    (w : World) : ∃ agent_id ps, ps <+: item.ops env agent_id ∧
      ps.foldlM Stored.perform (stored w) =
        some (stored ((handle env e key payload).run w).2) := by
  simp only [Item.ops, hdict, hselect]
  cases hparse : Event.parse env.parsing payload e with
  | none => exact ⟨none, [], List.nil_prefix, by rw [handle_of_invalid hparse]; rfl⟩
  | some event =>
    rw [handle_of_parse hparse]
    exact performs_on event w

/-- The consumer, the operations that the handler of each worker has before it, and what has been
stored. -/
structure Writing where
  state : State
  left : ℕ → List Op
  stored : Stored

inductive WritingAction where
  /-- A step of the tasks; a handler that is called in it has this environment, and a transfer finds
  this agent. -/
  | task (a : Action) (env : Env) (agent_id : Option String)
  /-- The next operation of a handler takes effect. -/
  | perform (w : ℕ)

namespace Writing

def start (cfg : Config) (records : List Record) (stored : Stored) : Writing :=
  ⟨.start cfg records, fun _ => [], stored⟩

/-- A handler returns when all of its operations are done. -/
def allows (k : Writing) : Action → Bool
  | .worker .handlerReturns =>
    match k.state.cpu with
    | some (.worker w) => (k.left w).isEmpty
    | _ => true
  | _ => true

/-- A handler that is called has its operations before it, and one that raises does no more. -/
def leftAfter (k : Writing) (s' : State) (env : Env) (agent_id : Option String) :
    Action → ℕ → List Op
  | .worker a =>
    match k.state.cpu, a with
    | some (.worker w), .get =>
      match (s'.workers w).pc with
      | .handling item => Function.update k.left w (item.ops env agent_id)
      | _ => k.left
    | some (.worker w), .handlerRaises => Function.update k.left w []
    | _, _ => k.left
  | _ => k.left

def step (cfg : Config) (k : Writing) : WritingAction → Option Writing
  | .task a env agent_id =>
    if k.allows a then
      (Consumer.step cfg k.state a).map fun s' => ⟨s', k.leftAfter s' env agent_id a, k.stored⟩
    else none
  | .perform w =>
    match (k.state.workers w).pc, k.left w with
    | .handling _, op :: ops =>
      (k.stored.perform op).map fun stored => ⟨k.state, Function.update k.left w ops, stored⟩
    | _, _ => none

end Writing

/-- **The assumption.** A payload names the conversation of its key. -/
def NamesKey (cfg : Config) (records : List Record) : Prop :=
  ∀ msg ∈ records, ∀ c v, cfg.delivery msg = some (c, v) →
    ∀ payload, v.dict? = some payload → payload.lookup "conversation_id" = some (.str c)

/-- The handler of an item has done these operations, and all of them if it was to return. -/
def Ran (whole : Prop) (item : Item) (ops : List Op) : Prop :=
  ∃ env agent_id, ops <+: item.ops env agent_id ∧ (whole → ops = item.ops env agent_id)

/-! ### The invariant -/

/-- What has been done, `W`, is what the handlers of each conversation have done one after another,
`hist`. If `calm`, then no handler has raised. -/
structure Serial (start : Stored) (calm : Prop) (k : Writing) (W : List (String × Op))
    (hist : String → List (Item × List Op)) : Prop where
  stored : k.stored = Replay.perform Stored.apply start (W.map Prod.snd)
  items : ∀ c, (hist c).map Prod.fst = k.state.dispatchedTo c
  log : ∀ c, ofKey c W = (hist c).flatMap Prod.snd
  /-- The handler in progress is the last one of its conversation. -/
  current : ∀ w item, (k.state.workers w).pc = .handling item → ∃ front done env agent_id,
    hist (k.state.workers w).conversation_id = front ++ [(item, done)] ∧
      done ++ k.left w = item.ops env agent_id ∧ ∀ e ∈ front, Ran calm e.1 e.2
  idle : ∀ c, (∀ w item, (k.state.workers w).pc = .handling item →
    (k.state.workers w).conversation_id ≠ c) → ∀ e ∈ hist c, Ran calm e.1 e.2

section Step

variable {cfg : Config} {start : Stored} {calm : Prop} {k k' : Writing} {W : List (String × Op)}
  {hist : String → List (Item × List Op)}

/-- Nothing happens to a handler. -/
theorem Serial.congr (h : Serial start calm k W hist) (hstored : k'.stored = k.stored)
    (hdispatched : k'.state.dispatched = k.state.dispatched)
    (hpc : ∀ w item, (k'.state.workers w).pc = .handling item ↔
      (k.state.workers w).pc = .handling item)
    (hconv : ∀ w item, (k.state.workers w).pc = .handling item →
      (k'.state.workers w).conversation_id = (k.state.workers w).conversation_id)
    (hleft : k'.left = k.left) : Serial start calm k' W hist where
  stored := hstored.trans h.stored
  items c := by rw [h.items, State.dispatchedTo, State.dispatchedTo, hdispatched]
  log := h.log
  current w item hw := by
    rw [hpc] at hw
    rw [hconv w item hw, hleft]
    exact h.current w item hw
  idle c hc := by
    refine h.idle c fun w item hw => ?_
    rw [← hconv w item hw]
    exact hc w item ((hpc w item).mpr hw)

/-- While a worker is at its queue, its conversation has no handler. -/
theorem ne_of_getting {s : State} (ht : TableInv s) {v w : ℕ} {x : Item}
    (hw : (s.workers w).pc = .getting) (hv : (s.workers v).pc = .handling x) :
    (s.workers v).conversation_id ≠ (s.workers w).conversation_id := by
  intro hc
  obtain rfl := ht.live_inj (by rw [hv]; rfl) (by rw [hw]; rfl) hc
  rw [hv] at hw
  cases hw

/-- The history of a conversation gets one more call, with nothing done. -/
theorem items_called (h : Serial start calm k W hist) {c : String} {item : Item}
    (hdispatched : k'.state.dispatched = k.state.dispatched ++ [(c, item)]) (d : String) :
    (Function.update hist c (hist c ++ [(item, [])]) d).map Prod.fst =
      k'.state.dispatchedTo d := by
  rw [dispatchedTo_append hdispatched, Function.update_apply, ← h.items]
  split
  · next hd => rw [if_pos hd.symm, hd, List.map_append]; rfl
  · next hd => rw [if_neg (Ne.symm hd), List.append_nil]

theorem log_called (h : Serial start calm k W hist) (c : String) (item : Item) (d : String) :
    ofKey d W = (Function.update hist c (hist c ++ [(item, [])]) d).flatMap Prod.snd := by
  rw [h.log, Function.update_apply]
  split
  · next hd => rw [hd, List.flatMap_append]; exact (List.append_nil _).symm
  · rfl

/-- **A handler is called.** -/
theorem Serial.handed (h : Serial start calm k W hist) (ht : TableInv k.state) {w : ℕ} {item : Item}
    (env : Env) (agent_id : Option String) (hpc : (k.state.workers w).pc = .getting)
    (hstored : k'.stored = k.stored)
    (hdispatched : k'.state.dispatched =
      k.state.dispatched ++ [((k.state.workers w).conversation_id, item)])
    (hworkers : ∀ v, k'.state.workers v =
      if v = w then { k.state.workers w with
        queue := (k'.state.workers w).queue, pc := .handling item } else k.state.workers v)
    (hleft : k'.left = Function.update k.left w (item.ops env agent_id)) :
    Serial start calm k' W (Function.update hist (k.state.workers w).conversation_id
      (hist (k.state.workers w).conversation_id ++ [(item, [])])) where
  stored := hstored.trans h.stored
  items := items_called h hdispatched
  log := log_called h _ _
  current v x hv := by
    rw [hworkers] at hv ⊢
    split at hv
    · next hvw =>
      obtain rfl := WorkerPc.handling.inj hv
      rw [if_pos hvw, hleft, hvw]
      refine ⟨hist _, [], env, agent_id, Function.update_self .., by simp, ?_⟩
      exact h.idle _ fun u y hu => ne_of_getting ht hpc hu
    · next hvw =>
      rw [if_neg hvw, hleft, Function.update_of_ne hvw,
        Function.update_of_ne (ne_of_getting ht hpc hv)]
      exact h.current v x hv
  idle c hc e he := by
    have hne : c ≠ (k.state.workers w).conversation_id := by
      have hw := hc w item (by rw [hworkers, if_pos rfl])
      rw [hworkers, if_pos rfl] at hw
      exact Ne.symm hw
    rw [Function.update_of_ne hne] at he
    refine h.idle c (fun v x hv => ?_) e he
    by_cases hvw : v = w
    · rw [hvw]
      exact Ne.symm hne
    · have hv' := hc v x (by rw [hworkers, if_neg hvw]; exact hv)
      rwa [hworkers, if_neg hvw] at hv'

/-- An item without a handler. -/
theorem Serial.dropped (h : Serial start calm k W hist) (ht : TableInv k.state) {w : ℕ}
    {item : Item} (env : Env) (hpc : (k.state.workers w).pc = .getting)
    (hops : ∀ env agent_id, item.ops env agent_id = []) (hstored : k'.stored = k.stored)
    (hdispatched : k'.state.dispatched =
      k.state.dispatched ++ [((k.state.workers w).conversation_id, item)])
    (hworkers : ∀ v, k'.state.workers v =
      if v = w then { k.state.workers w with
        queue := (k'.state.workers w).queue, pc := .getting } else k.state.workers v)
    (hleft : k'.left = k.left) :
    Serial start calm k' W (Function.update hist (k.state.workers w).conversation_id
      (hist (k.state.workers w).conversation_id ++ [(item, [])])) := by
  have hne : ∀ v x, (k'.state.workers v).pc = .handling x → v ≠ w := by
    rintro v x hv rfl
    rw [hworkers, if_pos rfl] at hv
    cases hv
  refine ⟨hstored.trans h.stored, items_called h hdispatched, log_called h _ _, ?_, ?_⟩
  · intro v x hv
    have hvw := hne v x hv
    rw [hworkers, if_neg hvw] at hv ⊢
    rw [hleft, Function.update_of_ne (ne_of_getting ht hpc hv)]
    exact h.current v x hv
  · intro c hc e he
    have hidle : ∀ e ∈ hist c, Ran calm e.1 e.2 := by
      refine h.idle c fun v x hv => ?_
      have hvw : v ≠ w := by
        rintro rfl
        rw [hpc] at hv
        cases hv
      have hv' := hc v x (by rw [hworkers, if_neg hvw]; exact hv)
      rwa [hworkers, if_neg hvw] at hv'
    rw [Function.update_apply] at he
    split at he
    · next hcw =>
      obtain he | he := List.mem_append.mp he
      · exact hidle e (hcw ▸ he)
      · obtain rfl := List.mem_singleton.mp he
        exact ⟨env, none, List.nil_prefix, fun _ => (hops env none).symm⟩
    · exact hidle e he

/-- **A handler ends.** -/
theorem Serial.ended (h : Serial start calm k W hist) {w : ℕ} {item : Item}
    (hpc : (k.state.workers w).pc = .handling item) (hstored : k'.stored = k.stored)
    (hdispatched : k'.state.dispatched = k.state.dispatched)
    (hworkers : ∀ v ≠ w, k'.state.workers v = k.state.workers v)
    (hnot : ∀ x, (k'.state.workers w).pc ≠ .handling x)
    (hleft : ∀ v ≠ w, k'.left v = k.left v) (hend : calm → k.left w = []) :
    Serial start calm k' W hist where
  stored := hstored.trans h.stored
  items c := by rw [h.items, State.dispatchedTo, State.dispatchedTo, hdispatched]
  log := h.log
  current v x hv := by
    have hvw : v ≠ w := by
      rintro rfl
      exact hnot x hv
    rw [hworkers v hvw] at hv ⊢
    rw [hleft v hvw]
    exact h.current v x hv
  idle c hc e he := by
    by_cases hcw : (k.state.workers w).conversation_id = c
    · obtain ⟨front, done, env, agent_id, hhist, hops, hfront⟩ := h.current w item hpc
      rw [← hcw, hhist] at he
      obtain he | he := List.mem_append.mp he
      · exact hfront e he
      · obtain rfl := List.mem_singleton.mp he
        refine ⟨env, agent_id, hops ▸ List.prefix_append .., fun hcalm => ?_⟩
        rw [← hops, hend hcalm, List.append_nil]
    · refine h.idle c (fun v x hv => ?_) e he
      by_cases hvw : v = w
      · exact hvw ▸ hcw
      · have hv' := hc v x (by rw [hworkers v hvw]; exact hv)
        rwa [hworkers v hvw] at hv'

/-- **An operation takes effect.** -/
theorem Serial.performed (h : Serial start calm k W hist) (ht : TableInv k.state) {w : ℕ}
    {item : Item} {op : Op} {ops : List Op} {stored : Stored}
    (hpc : (k.state.workers w).pc = .handling item) (hops : k.left w = op :: ops)
    (hstored : k.stored.perform op = some stored) : ∃ W' hist',
      Serial start calm ⟨k.state, Function.update k.left w ops, stored⟩ W' hist' := by
  obtain ⟨front, done, env, agent_id, hhist, hdone, hfront⟩ := h.current w item hpc
  refine ⟨W ++ [((k.state.workers w).conversation_id, op)],
    Function.update hist (k.state.workers w).conversation_id (front ++ [(item, done ++ [op])]),
    ?_, fun c => ?_, fun c => ?_, fun v x hv => ?_, fun c hc e he => ?_⟩
  · have happly : k.stored.apply op = stored := by rw [Stored.apply, hstored]; rfl
    rw [List.map_append, perform_append, ← h.stored]
    exact happly.symm
  · rw [← h.items, Function.update_apply]
    split
    · next hc => rw [hc, hhist, List.map_append, List.map_append]; rfl
    · rfl
  · have hone : ofKey c [((k.state.workers w).conversation_id, op)] =
        if (k.state.workers w).conversation_id = c then [op] else [] := ofKey_map_mk c _ [op]
    rw [ofKey_append, h.log, hone]
    by_cases hc : (k.state.workers w).conversation_id = c
    · rw [if_pos hc, ← hc, hhist, Function.update_self]
      simp
    · rw [if_neg hc, Function.update_of_ne (Ne.symm hc), List.append_nil]
  · by_cases hvw : v = w
    · subst hvw
      obtain rfl : item = x := WorkerPc.handling.inj (hpc.symm.trans hv)
      refine ⟨front, done ++ [op], env, agent_id, Function.update_self .., ?_, hfront⟩
      rw [← hdone, hops]
      simp
    · have hne : (k.state.workers v).conversation_id ≠ (k.state.workers w).conversation_id :=
        fun hc => hvw (ht.live_inj (by rw [hv]; rfl) (by rw [hpc]; rfl) hc)
      dsimp only
      rw [Function.update_of_ne hne, Function.update_of_ne hvw]
      exact h.current v x hv
  · rw [Function.update_of_ne (Ne.symm (hc w item hpc))] at he
    exact h.idle c hc e he

/-- A worker moves that has no handler before or after. -/
theorem Serial.quiet (h : Serial start calm k W hist) {w : ℕ} (hstored : k'.stored = k.stored)
    (hdispatched : k'.state.dispatched = k.state.dispatched)
    (hworkers : ∀ v ≠ w, k'.state.workers v = k.state.workers v)
    (hbefore : ∀ x, (k.state.workers w).pc ≠ .handling x)
    (hafter : ∀ x, (k'.state.workers w).pc ≠ .handling x) (hleft : k'.left = k.left) :
    Serial start calm k' W hist := by
  refine h.congr hstored hdispatched (fun v x => ?_) (fun v x hv => ?_) hleft
  · by_cases hvw : v = w
    · rw [hvw]
      exact iff_of_false (hafter x) (hbefore x)
    · rw [hworkers v hvw]
  · have hvw : v ≠ w := by
      rintro rfl
      exact hbefore x hv
    rw [hworkers v hvw]

/-- A handler raises in this step. -/
def WritingAction.raises : WritingAction → Bool
  | .task (.worker .handlerRaises) _ _ => true
  | _ => false

theorem ops_of_noHandler {item : Item} {payload : Dict Json}
    (hdict : item.value.dict? = some payload) (hnone : ∀ e, select payload ≠ .handler e)
    (env : Env) (agent_id : Option String) : item.ops env agent_id = [] := by
  simp only [Item.ops, hdict]

/-- **A step of the tasks.** -/
theorem Serial.task (h : Serial start calm k W hist) (ht : TableInv k.state) {a : Action}
    {env : Env} {agent_id : Option String} {s' : State}
    (hcalm : (WritingAction.task a env agent_id).raises = true → ¬calm)
    (hallows : k.allows a = true) (hs : Consumer.step cfg k.state a = some s') : ∃ W' hist',
      Serial start calm ⟨s', k.leftAfter s' env agent_id a, k.stored⟩ W' hist' := by
  have hne {w : ℕ} {pc : WorkerPc} (hpc : (k.state.workers w).pc = pc)
      (hnot : ∀ x, pc ≠ .handling x) (x : Item) : (k.state.workers w).pc ≠ .handling x :=
    hpc ▸ hnot x
  cases stepped_of_step hs with
  | resumed | skipped | delivered | awaitsRecord | putWaits =>
    exact ⟨W, hist, h.congr rfl rfl (fun _ _ => Iff.rfl) (fun _ _ _ => rfl) rfl⟩
  | created cpu loop input delivery new =>
    refine ⟨W, hist, h.quiet (w := k.state.created) rfl rfl (fun v hv => ?_)
      (hne (ht.unborn _ le_rfl).2 (by simp)) (fun x => ?_) rfl⟩
    · exact Function.update_of_ne hv _ _
    · simp
  | @put q item cpu loop room =>
    refine ⟨W, hist, h.congr rfl rfl (fun v x => ?_) (fun v x _ => ?_) rfl⟩
    · simp only [State.enqueue, State.modify_workers]
      split
      · next hv => rw [hv]
      · exact Iff.rfl
    · simp only [State.enqueue, State.modify_workers]
      split
      · next hv => rw [hv]
      · rfl
  | @acquired w cpu pc free =>
    refine ⟨W, hist, h.quiet (w := w) rfl rfl (fun v hv => ?_) (fun x hx => ?_) (fun x => ?_) ?_⟩
    · simp [State.setPc, hv]
    · rcases pc with pc | pc <;> simp [pc] at hx
    · simp [State.setPc]
    · simp [Writing.leftAfter, cpu]
  | @acquireWaits w cpu pc exhausted =>
    refine ⟨W, hist, h.quiet (w := w) rfl rfl (fun v hv => ?_) (fun x hx => ?_) (fun x => ?_) ?_⟩
    · simp [State.setPc, hv]
    · rcases pc with pc | pc <;> simp [pc] at hx
    · simp [State.setPc]
    · simp [Writing.leftAfter, cpu]
  | @getWaits w cpu pc empty =>
    refine ⟨W, hist, h.congr rfl rfl (fun _ _ => Iff.rfl) (fun _ _ _ => rfl) ?_⟩
    simp [Writing.leftAfter, cpu, pc]
  | @exited w item rest cpu pc queue null =>
    refine ⟨W, hist, h.quiet (w := w) rfl rfl (fun v hv => ?_) (hne pc (by simp)) (fun x => ?_) ?_⟩
    · simp [State.workers_exit, hv]
    · simp [State.workers_exit]
    · simp [Writing.leftAfter, cpu, State.workers_exit]
  | @died w item rest cpu pc queue notNull notDict =>
    refine ⟨W, hist, h.quiet (w := w) rfl rfl (fun v hv => ?_) (hne pc (by simp)) (fun x => ?_) ?_⟩
    · simp [State.workers_die, hv]
    · simp [State.workers_die]
    · simp [Writing.leftAfter, cpu, State.workers_die]
  | @handed w item rest payload e cpu pc queue dict handler =>
    refine ⟨W, _, h.handed ht env agent_id pc rfl rfl (fun v => ?_) ?_⟩
    · simp
    · simp [Writing.leftAfter, cpu]
  | @dropped w item rest payload cpu pc queue dict noHandler =>
    refine ⟨W, _, h.dropped ht env pc (ops_of_noHandler dict noHandler) rfl rfl (fun v => ?_) ?_⟩
    · simp
    · simp [Writing.leftAfter, cpu]
  | @suspended w item cpu pc =>
    refine ⟨W, hist, h.congr rfl rfl (fun _ _ => Iff.rfl) (fun _ _ _ => rfl) ?_⟩
    simp [Writing.leftAfter, cpu]
  | @ended w item b cpu pc how =>
    refine ⟨W, hist, h.ended pc rfl rfl (fun v hv => ?_) (fun x => ?_) (fun v hv => ?_) ?_⟩
    · simp [State.setPc, hv]
    · simp [State.setPc]
    · rcases how with rfl | ⟨rfl, -⟩ <;> simp [Writing.leftAfter, cpu, hv]
    · intro hc
      rcases how with rfl | ⟨rfl, -⟩
      · exact absurd hc (hcalm rfl)
      · simpa [Writing.allows, cpu] using hallows
  | @chatEnded w q item cpu pc chatEnd queue =>
    refine ⟨W, hist, h.ended pc rfl rfl (fun v hv => ?_) (fun x => ?_) (fun v hv => ?_) ?_⟩
    · simp [State.setPc, hv]
    · simp [State.setPc]
    · simp [Writing.leftAfter, cpu]
    · exact fun _ => by simpa [Writing.allows, cpu] using hallows
  | @sentinelWaits w q cpu pc full =>
    refine ⟨W, hist, h.congr rfl rfl (fun _ _ => Iff.rfl) (fun _ _ _ => rfl) ?_⟩
    simp [Writing.leftAfter, cpu]
  | @sentinelPut w q cpu pc room =>
    obtain rfl := ht.workerQueue w q pc
    refine ⟨W, hist, h.quiet (w := q) rfl rfl (fun v hv => ?_) (hne pc (by simp)) (fun x => ?_) ?_⟩
    · simp [State.setPc_enqueue, hv]
    · simp [State.setPc_enqueue]
    · simp [Writing.leftAfter, cpu]

/-- **A step.** -/
theorem Serial.step (h : Serial start calm k W hist) (ht : TableInv k.state) {a : WritingAction}
    (hcalm : a.raises = true → ¬calm) (hs : Writing.step cfg k a = some k') :
    ∃ W' hist', Serial start calm k' W' hist' := by
  cases a with
  | task a env agent_id =>
    obtain ⟨hallows, hs⟩ := Option.ite_none_right_eq_some.mp hs
    obtain ⟨s', hstep, rfl⟩ := Option.map_eq_some_iff.mp hs
    exact h.task ht hcalm hallows hstep
  | perform w =>
    rw [Writing.step] at hs
    split at hs
    · next item op ops hpc hops =>
      obtain ⟨stored, hstored, rfl⟩ := Option.map_eq_some_iff.mp hs
      exact h.performed ht hpc hops hstored
    · cases hs

end Step

/-! ### A whole run -/

section Run

variable {cfg : Config} {records : List Record} {start : Stored} {k k' : Writing}

/-- The tasks of a run are those of the consumer. -/
theorem trailInv_step {a : WritingAction} (h : TrailInv cfg records k.state)
    (hs : Writing.step cfg k a = some k') : TrailInv cfg records k'.state := by
  cases a with
  | task a env agent_id =>
    obtain ⟨-, hs⟩ := Option.ite_none_right_eq_some.mp hs
    obtain ⟨s', hstep, rfl⟩ := Option.map_eq_some_iff.mp hs
    exact h.step hstep
  | perform w =>
    rw [Writing.step] at hs
    split at hs
    · obtain ⟨stored, -, rfl⟩ := Option.map_eq_some_iff.mp hs
      exact h
    · cases hs

theorem serial_start (cfg : Config) (records : List Record) (start : Stored) (calm : Prop) :
    Serial start calm (.start cfg records start) [] fun _ => [] where
  stored := rfl
  items _ := rfl
  log _ := rfl
  current w item hw := by cases hw
  idle c hc e he := absurd he List.not_mem_nil

/-- What holds throughout a run. -/
theorem exists_serial_of_run (calm : Prop) {schedule : List WritingAction} {k₀ : Writing}
    {W : List (String × Op)} {hist : String → List (Item × List Op)}
    (hcalm : ∀ a ∈ schedule, a.raises = true → ¬calm) (ht : TrailInv cfg records k₀.state)
    (h : Serial start calm k₀ W hist)
    (hr : Transition.run (Writing.step cfg) k₀ schedule = some k) :
    TrailInv cfg records k.state ∧ ∃ W hist, Serial start calm k W hist := by
  induction schedule generalizing k₀ W hist with
  | nil =>
    obtain rfl := Option.some.inj hr
    exact ⟨ht, W, hist, h⟩
  | cons a schedule ih =>
    obtain ⟨k₁, hs, hr⟩ := Option.bind_eq_some_iff.mp hr
    rw [List.forall_mem_cons] at hcalm
    obtain ⟨W₁, hist₁, h₁⟩ := h.step ht.table hcalm.1 hs
    exact ih hcalm.2 (trailInv_step ht hs) h₁ hr

theorem exists_delivery_of_mem {c : String} {item : Item} {n : ℕ} {rs : List Record}
    (h : item ∈ cfg.itemsFrom c n rs) : ∃ msg ∈ rs, cfg.delivery msg = some (c, item.value) := by
  induction rs generalizing n with
  | nil => exact absurd h List.not_mem_nil
  | cons msg rest ih =>
    cases hd : cfg.delivery msg with
    | none =>
      rw [itemsFrom_skip hd] at h
      obtain ⟨msg', hmsg', hdelivery⟩ := ih h
      exact ⟨msg', List.mem_cons_of_mem msg hmsg', hdelivery⟩
    | some d =>
      have hdeliver : cfg.delivery msg = some (d.1, d.2) := hd
      rw [itemsFrom_deliver hdeliver] at h
      obtain h | h := List.mem_append.mp h
      · split at h
        · next hc =>
          obtain rfl := List.mem_singleton.mp h
          exact ⟨msg, List.mem_cons_self, by rw [hd, ← hc]⟩
        · exact absurd h List.not_mem_nil
      · obtain ⟨msg', hmsg', hdelivery⟩ := ih h
        exact ⟨msg', List.mem_cons_of_mem msg hmsg', hdelivery⟩

/-- What a handler does is about the conversation of its worker. -/
theorem concerns_of_dispatchedTo (ht : TrailInv cfg records k.state) (hkey : NamesKey cfg records)
    {c : String} {item : Item} (hitem : item ∈ k.state.dispatchedTo c) {env : Env}
    {agent_id : Option String} {op : Op} (hop : op ∈ item.ops env agent_id) : op.Concerns c := by
  obtain ⟨msg, hmsg, hdelivery⟩ := exists_delivery_of_mem ((ht.order c).subset hitem)
  have hname := hkey msg (List.mem_of_mem_take hmsg) c item.value hdelivery
  rw [Item.ops] at hop
  split at hop
  · exact absurd hop List.not_mem_nil
  · next payload hdict =>
    split at hop
    · next e _ =>
      cases hparse : Event.parse env.parsing payload e with
      | none =>
        rw [hparse] at hop
        exact absurd hop List.not_mem_nil
      | some event =>
        rw [hparse] at hop
        have hfield := conversation_id_of_parse hparse
        rw [field, hname payload hdict] at hfield
        obtain rfl : c = event.conversation_id := Option.some.inj hfield
        exact concerns_of_mem hop
    · exact absurd hop List.not_mem_nil

/-- No handler is in progress. -/
def State.Resting (s : State) : Prop := ∀ w item, (s.workers w).pc ≠ .handling item

theorem Serial.ran {calm : Prop} {W : List (String × Op)}
    {hist : String → List (Item × List Op)} (h : Serial start calm k W hist) {c : String}
    {e : Item × List Op} (he : e ∈ hist c) : Ran (calm ∧ k.state.Resting) e.1 e.2 := by
  by_cases hbusy : ∃ w item, (k.state.workers w).pc = .handling item ∧
      (k.state.workers w).conversation_id = c
  · obtain ⟨w, item, hpc, rfl⟩ := hbusy
    obtain ⟨front, done, env, agent_id, hhist, hops, hfront⟩ := h.current w item hpc
    rw [hhist] at he
    obtain he | he := List.mem_append.mp he
    · obtain ⟨env, agent_id, hpart, -⟩ := hfront e he
      exact ⟨env, agent_id, hpart, fun hwhole => absurd hpc (hwhole.2 w item)⟩
    · obtain rfl := List.mem_singleton.mp he
      exact ⟨env, agent_id, hops ▸ List.prefix_append ..,
        fun hwhole => absurd hpc (hwhole.2 w item)⟩
  · obtain ⟨env, agent_id, hpart, hcalm⟩ :=
      h.idle c (fun w item hpc hc => hbusy ⟨w, item, hpc, hc⟩) e he
    exact ⟨env, agent_id, hpart, fun hwhole => hcalm hwhole.1⟩

/-- What is stored, for an order of the items that is the order of the calls for each conversation.
It may have items that have not been handed to a handler. -/
theorem exists_serial_order (hkey : NamesKey cfg records) {schedule : List WritingAction}
    (hr : Transition.run (Writing.step cfg) (.start cfg records start) schedule = some k)
    {l : List (String × Item)} (hl : ∀ c, (k.state.dispatchedTo c).Sublist (ofKey c l))
    (hnodup : ∀ c, (ofKey c l).Nodup) : ∃ blocks : List (List Op),
      List.Forall₂ (fun e ops =>
          (e ∈ k.state.dispatched →
            Ran ((∀ a ∈ schedule, a.raises = false) ∧ k.state.Resting) e.2 ops) ∧
          (e ∉ k.state.dispatched → ops = [])) l blocks ∧
      k.stored.Same (Replay.perform Stored.apply start blocks.flatten) ∧
      ∀ v ∈ k.stored.records, v ∈ start.records ∨ (recordConversation v).isSome := by
  obtain ⟨ht, W, hist, h⟩ := exists_serial_of_run (∀ a ∈ schedule, a.raises = false)
    (fun a ha hraises hcalm => Bool.false_ne_true ((hcalm a ha).symm.trans hraises))
    (.start cfg records) (serial_start cfg records start _) hr
  have hcalled {c : String} {item : Item} :
      (c, item) ∈ k.state.dispatched ↔ item ∈ (hist c).map Prod.fst := by
    rw [h.items, State.dispatchedTo, ← mem_ofKey]
    rfl
  choose hist' hitems hflat hpadded using fun c =>
    exists_padded (h.items c ▸ hl c) (hnodup c)
  obtain ⟨M, hM, hofKey⟩ := exists_ordered hitems
  have hmem : ∀ x ∈ M, x.2 ∈ hist' x.1 := fun x hx => hofKey x.1 ▸ mem_ofKey.mpr hx
  -- the operations of the items, in their order
  let V : List (String × Op) := M.flatMap fun x => x.2.2.map fun op => (x.1, op)
  have hV : Labelled V := by
    intro y hy
    obtain ⟨x, hx, hy⟩ := List.mem_flatMap.mp hy
    obtain ⟨op, hop, rfl⟩ := List.mem_map.mp hy
    obtain hin | ⟨-, hnil⟩ := hpadded x.1 x.2 (hmem x hx)
    · obtain ⟨env, agent_id, hpart, -⟩ := h.ran hin
      have hitem : x.2.1 ∈ k.state.dispatchedTo x.1 := h.items x.1 ▸ List.mem_map_of_mem hin
      exact concerns_of_dispatchedTo ht hkey hitem (hpart.subset hop)
    · rw [hnil] at hop
      exact absurd hop List.not_mem_nil
  have hlogs : ∀ c, ofKey c W = ofKey c V := by
    intro c
    rw [h.log, ofKey_flatMap c M Prod.snd, hofKey, hflat]
  have hW : Labelled W := fun y hy => hV y (mem_ofKey.mp (hlogs y.1 ▸ mem_ofKey.mpr hy))
  refine ⟨M.map fun x => x.2.2, ?_, ?_, fun v hv => ?_⟩
  · rw [← hM, List.forall₂_map_left_iff, List.forall₂_map_right_iff, List.forall₂_same]
    intro x hx
    obtain hin | ⟨hout, hnil⟩ := hpadded x.1 x.2 (hmem x hx)
    · exact ⟨fun _ => h.ran hin, fun hnot => absurd (hcalled.mpr (List.mem_map_of_mem hin)) hnot⟩
    · exact ⟨fun hin => absurd (hcalled.mp hin) hout, fun _ => hnil⟩
  · have hflatten : V.map Prod.snd = (M.map fun x => x.2.2).flatten := by
      simp [V, List.flatMap_def, Function.comp_def]
    rw [h.stored, ← hflatten]
    exact same_of_labelled hW hV (sameByKey_of_ofKey hlogs) start
  · rw [h.stored, records_applied] at hv
    refine (List.mem_append.mp hv).imp_right fun hv => ?_
    obtain ⟨op, hop, hv⟩ := List.mem_filterMap.mp hv
    obtain ⟨⟨c, op⟩, hx, rfl⟩ := List.mem_map.mp hop
    cases op with
    | execute stmt => cases hv
    | publish record => rw [hW _ hx v hv]; rfl

/-- **The handlers one after another.** What a run stores is what the handlers store when each runs
alone, in the order in which they were called: each does a part of its operations, and all of them
if no handler raises and none is in progress. -/
theorem serial_of_run (hkey : NamesKey cfg records) {schedule : List WritingAction}
    (hr : Transition.run (Writing.step cfg) (.start cfg records start) schedule = some k) :
    ∃ blocks : List (List Op),
      List.Forall₂ (fun e ops =>
          Ran ((∀ a ∈ schedule, a.raises = false) ∧ k.state.Resting) e.2 ops)
        k.state.dispatched blocks ∧
      k.stored.Same (Replay.perform Stored.apply start blocks.flatten) := by
  obtain ⟨ht, -⟩ := exists_serial_of_run False (fun _ _ _ => not_false)
    (.start cfg records) (serial_start cfg records start _) hr
  obtain ⟨blocks, hblocks, hsame, -⟩ := exists_serial_order hkey hr (l := k.state.dispatched)
    (fun c => List.Sublist.refl _) ht.ordered.nodup
  refine ⟨blocks, ?_, hsame⟩
  have hcalled := (List.forall₂_and_left k.state.dispatched blocks).mpr ⟨fun e he => he, hblocks⟩
  exact hcalled.imp fun e ops h => h.2.1 h.1

end Run

/-! ### Two conversations at a time -/

/-- A `chat_start` of one conversation: the text, and what it says. -/
def startText : String × Json :=
  ("\x7b\"event_type\":\"chat_start\",\"conversation_id\":\"c1\",\"user_id\":\"u1\"," ++
      "\"bot_id\":\"b1\",\"timestamp\":7\x7d",
    .obj [("event_type", .str "chat_start"), ("conversation_id", .str "c1"),
      ("user_id", .str "u1"), ("bot_id", .str "b1"), ("timestamp", .int 7)])

/-- A `chat_end` of another. -/
def otherEndText : String × Json :=
  ("\x7b\"event_type\":\"chat_end\",\"conversation_id\":\"c2\",\"timestamp\":8\x7d",
    .obj [("event_type", .str "chat_end"), ("conversation_id", .str "c2"), ("timestamp", .int 8)])

def startConfig : Config := ⟨100, 10000, loadsOf [startText, otherEndText]⟩

def startRecords : List Record :=
  [⟨some "c1".toUTF8, some startText.1.toUTF8, []⟩,
    ⟨some "c2".toUTF8, some otherEndText.1.toUTF8, []⟩]

/-- The second handler publishes its record while the first is between its statements. -/
def startRun : List WritingAction :=
  [.resume .loop, .loop .read, .loop .put, .loop .read, .loop .put, .loop .awaitRecord,
      .resume (.worker 0), .worker .acquire, .worker .get, .worker .handlerSuspends,
      .resume (.worker 1), .worker .acquire, .worker .get, .worker .handlerSuspends].map
    (fun a => .task a (.healthy .noon) none) ++ [.perform 0, .perform 1, .perform 0]

theorem namesKey_startRecords : NamesKey startConfig startRecords := by
  intro msg hmsg c v hd payload hpayload
  have h₁ : startConfig.delivery ⟨some "c1".toUTF8, some startText.1.toUTF8, []⟩ = some _ := rfl
  have h₂ : startConfig.delivery ⟨some "c2".toUTF8, some otherEndText.1.toUTF8, []⟩ = some _ := rfl
  simp only [startRecords, List.mem_cons, List.not_mem_nil, or_false] at hmsg
  obtain rfl | rfl := hmsg
  · obtain ⟨rfl, rfl⟩ := Prod.mk.inj (Option.some.inj (h₁.symm.trans hd))
    obtain rfl := Option.some.inj hpayload
    rfl
  · obtain ⟨rfl, rfl⟩ := Prod.mk.inj (Option.some.inj (h₂.symm.trans hd))
    obtain rfl := Option.some.inj hpayload
    rfl

theorem serial_of_run_start : ∃ k, Transition.run (Writing.step startConfig)
    (.start startConfig startRecords ⟨.empty, []⟩) startRun = some k ∧
    ∃ blocks : List (List Op),
      List.Forall₂ (fun e ops =>
          Ran ((∀ a ∈ startRun, a.raises = false) ∧ k.state.Resting) e.2 ops)
        k.state.dispatched blocks ∧
      k.stored.Same (Replay.perform Stored.apply ⟨.empty, []⟩ blocks.flatten) := by
  have hr : Transition.run (Writing.step startConfig)
      (.start startConfig startRecords ⟨.empty, []⟩) startRun = some _ := rfl
  exact ⟨_, hr, serial_of_run namesKey_startRecords hr⟩

end Consumer

end TitanChat
