import TitanChat.StatusForecast

/-!
# The status of a conversation

The `UPDATE` of a chat that has ended can come after the `INSERT` of the next chat, since only the
first is left to the worker. Then the status says `ended` while the chat is going on, and nothing
corrects it.

The runs here are in order: the events of the conversation come under its own key, its records are
consumed in the order of their publication and once each, and no call fails.

## Main definitions

* `stepInOrder`: the steps of these runs
* `Settles`: the status will be that of the last lifecycle event, once all records are consumed
* `Silent`, `Own`: operations without a part in the status, and what a handler has before it
* `Shape`: the invariant of these runs
* `InTime`: the condition on a step

## Main results

* `Shape.settles_iff_foretold`: a status that settles is one that is foretold
* `Shape.stepInOrder`: a step keeps the shape, and the forecast comes true if it is in time
* `status_settles_iff`: the exact statement
-/

namespace TitanChat

open WideColumn Handlers Persistence DateTime

namespace WritePath

variable {c : String} {s s' : WritePath}

/-! ### The operations of an event -/

/-- The operation has no part in the status of the conversation. -/
def Silent (c : String) : Op → Prop
  | .execute stmt => LeavesStatus c stmt
  | .publish record => ∀ v sc, (Json.obj record).transit = some v → recordScript v = some sc →
      ¬sc.Closes c

/-- What a handler of the conversation has before it, when its last lifecycle event says `last`. -/
inductive Own (c : String) : List Op → Option String → Prop
  | silent {ops : List Op} {last : Option String} (h : ∀ op ∈ ops, Silent c op) : Own c ops last
  | opening {stmt : Statement Table} {ops : List Op} (h : Activates c stmt)
      (hops : ∀ op ∈ ops, Silent c op) : Own c (.execute stmt :: ops) (some "active")
  | ending {record : List (String × Json)} {v : Json} {sc : Script}
      (hv : (Json.obj record).transit = some v) (hsc : recordScript v = some sc)
      (h : sc.Closes c) : Own c [.publish record] (some "ended")

section Events

variable {env : Env} {agent_id : Option String} {e : Event}

/-- A record of scalars arrives as it is. -/
theorem eq_of_transit {record : List (String × Json)} (h : ∀ kv ∈ record, kv.2.Scalar) {v : Json}
    (hv : (Json.obj record).transit = some v) : v = .obj record := by
  by_cases hcarried : ∀ kv ∈ record, kv.2.Carried
  · rw [Json.transit_of_carried h hcarried] at hv
    exact (Option.some.inj hv).symm
  · rw [Json.transit_of_not_carried h hcarried] at hv
    exact absurd hv (by simp)

/-- Only the record of a chat that ends has a part in the status. -/
theorem silent_publish {record : List (String × Json)} (h : ∀ kv ∈ record, kv.2.Scalar)
    {persist_type : String}
    (htype : optional (dictOf record) "_persist_type" (.str "") = .str persist_type)
    (hne : persist_type ≠ "chat_end") : Silent c (.publish record) := by
  intro v sc hv hsc
  obtain rfl := eq_of_transit h hv
  have hscript : (script persist_type).map (fun sc => sc (dictOf record)) = some sc := by
    rw [← hsc, recordScript]
    show _ = Option.bind (some (dictOf record)) _
    rw [Option.bind_some, htype]
  obtain ⟨sc, hsc', rfl⟩ := Option.map_eq_some_iff.mp hscript
  exact Script.not_closes_of_all (all_script leavesStatus_updatePreview (fun h => absurd h hne)
    (fun _ => leavesStatus_of_table) hsc' _)

theorem recordScript_chatEndRecord (event : ChatEndEvent) :
    recordScript (.obj (chatEndRecord event)) =
      some (match ofMicros (event.timestamp * 1000000) with
        | none => .fails
        | some now => .write (endConversation now (.text event.conversation_id)) .done) := by
  show some (chatEndScript (dictOf (chatEndRecord event))) = _
  have htime : timestampOf (dictOf (chatEndRecord event)) =
      ofMicros (event.timestamp * 1000000) := rfl
  rw [chatEndScript, htime]
  cases ofMicros (event.timestamp * 1000000) <;> rfl

/-- The record of a chat that ends, if the worker cannot read its timestamp. -/
theorem silent_chatEndRecord {event : ChatEndEvent}
    (h : event.conversation_id = c → ¬InRange event.timestamp) :
    Silent c (.publish (chatEndRecord event)) := by
  intro v sc hv hsc
  obtain rfl := eq_of_transit (by simp [chatEndRecord]) hv
  rw [recordScript_chatEndRecord] at hsc
  obtain rfl := Option.some.inj hsc
  have hnow := ofMicros_isSome event.timestamp
  refine Script.not_closes_of_all ?_
  cases hmicros : ofMicros (event.timestamp * 1000000) with
  | none => exact .fails
  | some now =>
    rw [hmicros, Option.isSome_some, eq_comm, decide_eq_true_eq] at hnow
    exact .write (leavesStatus_endConversation fun heq => h (Cell.text.inj heq) hnow) .done

/-- The record of a chat that ends, if the worker can. -/
theorem closes_chatEndRecord {event : ChatEndEvent} (hc : c ≠ "")
    (hname : event.conversation_id = c) (h : InRange event.timestamp) :
    ∃ v sc, (Json.obj (chatEndRecord event)).transit = some v ∧ recordScript v = some sc ∧
      sc.Closes c := by
  have hwide : Json.Wide event.timestamp := by
    rw [InRange] at h
    exact ⟨by omega, by omega⟩
  have hnow := ofMicros_isSome event.timestamp
  rw [decide_eq_true h, Option.isSome_iff_exists] at hnow
  obtain ⟨now, hnow⟩ := hnow
  have hsc := recordScript_chatEndRecord event
  rw [hnow, hname] at hsc
  exact ⟨_, _, Json.transit_of_carried (by simp [chatEndRecord]) (by simp [chatEndRecord, hwide]),
    hsc, _, rfl, ends_endConversation hc⟩

/-- What follows the `INSERT` of a chat that starts. -/
theorem silent_chatStartOps (event : ChatStartEvent) : ∀ op ∈ (if event.bot_id ≠ "" then
      [Op.execute (insertConversationByBot env event)] else []) ++
        [.publish (chatStartRecord event)], Silent c op := by
  intro op hop
  obtain hop | hop := List.mem_append.mp hop
  · obtain rfl : op = .execute (insertConversationByBot env event) := by
      split at hop
      · simpa using hop
      · simp at hop
    exact leavesStatus_of_table (by simp [insertConversationByBot, Statement.table])
  · obtain rfl := List.mem_singleton.mp hop
    exact silent_publish (by simp [chatStartRecord]) rfl (by decide)

theorem silent_assignmentRecord (event : TransferToAgentEvent) (a : String) :
    Silent c (.publish (assignmentRecord event a)) :=
  silent_publish (by simp [assignmentRecord]) rfl (by decide)

/-- An event that says nothing about the status. -/
theorem silent_ops_of_status (h : e.status agent_id = none) :
    ∀ op ∈ e.ops env agent_id, Silent c op := by
  intro op hop
  cases e with
  | chatStart | chatEnd => simp [Event.status] at h
  | transferToAgent event =>
    cases agent_id with
    | none => simp [Event.ops, transferToAgentOps] at hop
    | some a => simp [Event.status] at h
  | incomingMessage event | outgoingMessage event | ack event =>
    obtain rfl := List.mem_singleton.mp hop
    exact silent_publish (Event.record_scalar _) rfl (by decide)

/-- An event of another conversation. -/
theorem silent_ops_of_ne (h : e.conversation_id ≠ c) : ∀ op ∈ e.ops env agent_id, Silent c op := by
  intro op hop
  cases e with
  | chatStart event =>
    obtain rfl | hop := List.mem_cons.mp hop
    · exact leavesStatus_insertConversation h
    · exact silent_chatStartOps event op hop
  | transferToAgent event =>
    cases agent_id with
    | none => simp [Event.ops, transferToAgentOps] at hop
    | some a =>
      simp only [Event.ops, transferToAgentOps, List.mem_cons, List.not_mem_nil, or_false] at hop
      obtain rfl | rfl := hop
      · exact leavesStatus_assignConversation h
      · exact silent_assignmentRecord event a
  | chatEnd event =>
    obtain rfl := List.mem_singleton.mp hop
    exact silent_chatEndRecord fun heq => absurd heq h
  | incomingMessage event | outgoingMessage event | ack event =>
    exact silent_ops_of_status rfl op hop

/-- **An event of the conversation**: its operations are those of its status, unless they are those
of a chat that ends at a time that is none. -/
theorem own_ops (hc : c ≠ "") (h : e.conversation_id = c) (last : Option String) :
    Own c (e.ops env agent_id) ((e.status agent_id).or last) := by
  cases e with
  | chatStart event =>
    exact .opening (activates_insertConversation hc h) (silent_chatStartOps event)
  | transferToAgent event =>
    cases agent_id with
    | none => exact .silent (silent_ops_of_status rfl)
    | some a =>
      obtain rfl : event.conversation_id = c := h
      refine .opening (activates_assignConversation hc) fun op hop => ?_
      obtain rfl := List.mem_singleton.mp hop
      exact silent_assignmentRecord event a
  | chatEnd event =>
    by_cases hrange : InRange event.timestamp
    · obtain ⟨v, sc, hv, hsc, hcloses⟩ := closes_chatEndRecord hc h hrange
      exact .ending hv hsc hcloses
    · refine .silent fun op hop => ?_
      obtain rfl := List.mem_singleton.mp hop
      exact silent_chatEndRecord fun _ => hrange
  | incomingMessage event | outgoingMessage event | ack event =>
    exact .silent (silent_ops_of_status rfl)

end Events

/-! ### Runs in order -/

/-- The events of the conversation come under its key, its handler and the worker do not fail, and
the records are consumed in the order of their publication and once each. -/
def inOrder (c : String) : Action → Bool
  | .dispatch f env _ =>
    match f.event env.parsing with
    | some e => e.conversation_id ≠ c || f.conversation_id = c
    | none => true
  | .raise key => key ≠ c
  | .take n again => n = 0 && !again
  | .fail => false
  | .hot _ | .write => true

def stepInOrder (c : String) (s : WritePath) (a : Action) : Option WritePath :=
  if inOrder c a then step s a else none

theorem key_of_inOrder {f : Frame} {env : Env} {agent_id : Option String} {e : Event}
    (hin : inOrder c (.dispatch f env agent_id)) (he : f.event env.parsing = some e)
    (hname : e.conversation_id = c) : f.conversation_id = c := by
  simp only [inOrder, he, Bool.or_eq_true, decide_eq_true_eq] at hin
  exact hin.resolve_left fun hne => hne hname

/-- **The status settles.** When no operation on the status is left to the handler of the
conversation, the worker, however it goes on, comes to the status of the last lifecycle event. -/
def Settles (c : String) (s : WritePath) : Prop :=
  (∀ op ∈ s.handlers c, Silent c op) →
    ∀ s', Transition.Reachable workerStep (· = s) s' → Drained s' →
      ∀ status, s.last c = some status → statusOf s'.db c = some (.text status)

/-- **The condition.** A statement that makes the conversation active finds no end of it pending;
and the timestamp of a `chat_end` is the time of a `datetime`, unless the conversation has been
ended before. -/
def InTime (c : String) (s : WritePath) : Action → Prop
  | .hot key => ∀ stmt, s.executes (.hot key) = some stmt → Activates c stmt → ¬Pending c s
  | .dispatch f env _ => ∀ event, f.event env.parsing = some (.chatEnd event) →
      event.conversation_id = c → InRange event.timestamp ∨ s.last c = some "ended"
  | _ => True

/-- What every run in order keeps. -/
structure Shape (c : String) (s : WritePath) : Prop where
  worker : WorkerShape c s
  others : ∀ key, key ≠ c → ∀ op ∈ s.handlers key, Silent c op
  own : Own c (s.handlers c) (s.last c)
  fresh : s.last c = none → ¬Forecast c s (some (.text "ended"))
  last : ∀ status, s.last c = some status → status = "active" ∨ status = "ended"

theorem Shape.start (c : String) : Shape c start where
  worker w hw := absurd hw (by simp [WritePath.start])
  others key _ op hop := absurd hop (by simp [WritePath.start])
  own := .silent fun op hop => absurd hop (by simp [WritePath.start])
  fresh _ := by simp [Forecast, Pending, WritePath.start, statusOf_empty]
  last status h := absurd h (by simp [WritePath.start])

/-- The forecast is the status of the last lifecycle event, once the handler has no part in it. -/
def Foretold (c : String) (s : WritePath) : Prop :=
  (∀ op ∈ s.handlers c, Silent c op) → ∀ status, s.last c = some status →
    Forecast c s (some (.text status))

theorem Shape.settles_iff_foretold (h : Shape c s) (hc : c ≠ "") : Settles c s ↔ Foretold c s := by
  constructor
  · exact fun hs hsilent status hlast => (settles_iff_forecast h.worker hc).mp
      fun s' hs' hdone => hs hsilent s' hs' hdone status hlast
  · exact fun hf hsilent s' hs' hdone status hlast =>
      (settles_iff_forecast h.worker hc).mpr (hf hsilent status hlast) s' hs' hdone

/-! ### Steps -/

/-- A lifecycle event says one of two things. -/
theorem status_cases {e : Event} {agent_id : Option String} {status : String}
    (h : e.status agent_id = some status) : status = "active" ∨ status = "ended" := by
  cases e with
  | chatStart event => exact Or.inl (Option.some.inj h).symm
  | chatEnd event => exact Or.inr (Option.some.inj h).symm
  | transferToAgent event =>
    obtain ⟨a, -, heq⟩ := Option.map_eq_some_iff.mp h
    exact Or.inl heq.symm
  | incomingMessage event | outgoingMessage event | ack event => simp [Event.status] at h

theorem last_dispatch (s : WritePath) (key : String) (env : Env) (agent_id : Option String)
    (e : Event) : (s.dispatch key env agent_id e).last c =
      if e.conversation_id = c then (e.status agent_id).or (s.last c) else s.last c := by
  rw [dispatch]
  cases e.status agent_id with
  | none => simp
  | some status =>
    simp only [Function.update_apply, Option.some_or]
    exact if_congr eq_comm rfl rfl

section Dispatch

variable {f : Frame} {env : Env} {agent_id : Option String} {e : Event}

/-- An event reaches its handler. -/
theorem Shape.dispatch (h : Shape c s) (hc : c ≠ "")
    (hin : e.conversation_id = c → f.conversation_id = c) :
    Shape c (s.dispatch f.conversation_id env agent_id e) where
  worker := h.worker
  others key hkey op hop := by
    simp only [WritePath.dispatch, Function.update_apply] at hop
    split at hop
    · next heq => exact silent_ops_of_ne (fun hname => hkey (heq.trans (hin hname))) op hop
    · exact h.others key hkey op hop
  own := by
    rw [last_dispatch]
    simp only [WritePath.dispatch, Function.update_apply]
    by_cases hname : e.conversation_id = c
    · rw [if_pos (hin hname).symm, if_pos hname]
      exact own_ops hc hname (s.last c)
    · rw [if_neg hname]
      split
      · exact .silent (silent_ops_of_ne hname)
      · exact h.own
  fresh hnone := by
    rw [last_dispatch] at hnone
    refine h.fresh ?_
    split at hnone
    · exact (Option.or_eq_none_iff.mp hnone).2
    · exact hnone
  last status hlast := by
    rw [last_dispatch] at hlast
    split at hlast
    · rcases hstatus : e.status agent_id with _ | status'
      · rw [hstatus, Option.none_or] at hlast
        exact h.last status hlast
      · rw [hstatus, Option.some_or, Option.some.injEq] at hlast
        exact hlast ▸ status_cases hstatus
    · exact h.last status hlast

theorem inTime_of_ne_chatEnd (he : f.event env.parsing = some e)
    (hne : ∀ event, e = .chatEnd event → event.conversation_id ≠ c) :
    InTime c s (.dispatch f env agent_id) := by
  intro event hevent hname
  exact absurd hname (hne event (Option.some.inj (he.symm.trans hevent)))

/-- An operation that makes the conversation active is to come. -/
theorem foretold_of_activates {stmt : Statement Table} (hmem : .execute stmt ∈ s.handlers c)
    (h : Activates c stmt) : Foretold c s :=
  fun hsilent => absurd h (hsilent _ hmem : LeavesStatus c stmt).not_activates

/-- **A chat that ends** is foretold if its timestamp is a time, or if nothing changes. -/
theorem foretold_chatEnd (h : Shape c s) (hc : c ≠ "") {event : ChatEndEvent}
    (hname : event.conversation_id = c) (hidle : s.handlers c = []) (hf : Foretold c s) :
    Foretold c (s.dispatch c env agent_id (.chatEnd event)) ↔
      InRange event.timestamp ∨ s.last c = some "ended" := by
  have hops : (s.dispatch c env agent_id (.chatEnd event)).handlers c =
      [.publish (chatEndRecord event)] := Function.update_self ..
  have hlast : (s.dispatch c env agent_id (.chatEnd event)).last c = some "ended" := by
    rw [last_dispatch, if_pos (show (Event.chatEnd event).conversation_id = c from hname)]
    rfl
  have hbefore : ∀ status, s.last c = some status → Forecast c s (some (.text status)) :=
    hf (by simp [hidle])
  by_cases hrange : InRange event.timestamp
  · refine iff_of_true (fun hsilent => ?_) (Or.inl hrange)
    obtain ⟨v, sc, hv, hsc, hcloses⟩ := closes_chatEndRecord hc hname hrange
    have hpublish : Silent c (.publish (chatEndRecord event)) := hsilent _ (by simp [hops])
    exact absurd hcloses (hpublish v sc hv hsc)
  · have hsilent : ∀ op ∈ [Op.publish (chatEndRecord event)], Silent c op := by
      simpa using silent_chatEndRecord fun _ => hrange
    have hforecast : Foretold c (s.dispatch c env agent_id (.chatEnd event)) ↔
        Forecast c s (some (.text "ended")) := by
      rw [Foretold, hops, hlast]
      exact ⟨fun h => h hsilent "ended" rfl, fun h _ status heq => Option.some.inj heq ▸ h⟩
    rw [hforecast, or_iff_right hrange]
    constructor
    · intro hended
      cases hlast : s.last c with
      | none => exact absurd hended (h.fresh hlast)
      | some status =>
        have heq := (hbefore status hlast).unique hended
        simpa using heq
    · exact hbefore "ended"

theorem foretold_dispatch (h : Shape c s) (hc : c ≠ "")
    (hin : e.conversation_id = c → f.conversation_id = c)
    (he : f.event env.parsing = some e) (hidle : s.handlers f.conversation_id = [])
    (hf : Foretold c s) : Foretold c (s.dispatch f.conversation_id env agent_id e) ↔
      InTime c s (.dispatch f env agent_id) := by
  by_cases hname : e.conversation_id = c
  · have hkey : f.conversation_id = c := hin hname
    rw [hkey] at hidle ⊢
    have hops : (s.dispatch c env agent_id e).handlers c = e.ops env agent_id :=
      Function.update_self ..
    have hsame (hstatus : e.status agent_id = none) :
        Foretold c (s.dispatch c env agent_id e) := by
      intro _ status hlast
      rw [last_dispatch, if_pos hname, hstatus, Option.none_or] at hlast
      exact hf (by simp [hidle]) status hlast
    cases e with
    | chatStart event =>
      exact iff_of_true (foretold_of_activates (by rw [hops]; exact List.mem_cons_self ..)
        (activates_insertConversation hc hname)) (inTime_of_ne_chatEnd he (by simp))
    | transferToAgent event =>
      refine iff_of_true ?_ (inTime_of_ne_chatEnd he (by simp))
      cases agent_id with
      | none => exact hsame rfl
      | some a =>
        obtain rfl : event.conversation_id = c := hname
        exact foretold_of_activates (by rw [hops]; exact List.mem_cons_self ..)
          (activates_assignConversation hc)
    | chatEnd event =>
      rw [foretold_chatEnd h hc hname hidle hf, InTime, he]
      constructor
      · rintro hlaw event' heq -
        obtain rfl := Event.chatEnd.inj (Option.some.inj heq)
        exact hlaw
      · exact fun hlaw => hlaw event rfl hname
    | incomingMessage event | outgoingMessage event | ack event =>
      exact iff_of_true (hsame rfl) (inTime_of_ne_chatEnd he (by simp))
  · refine iff_of_true (fun hsilent status hlast => ?_) (inTime_of_ne_chatEnd he ?_)
    · rw [last_dispatch, if_neg hname] at hlast
      refine hf (fun op hop => ?_) status hlast
      by_cases hkey : f.conversation_id = c
      · rw [← hkey, hidle] at hop
        exact absurd hop (by simp)
      · refine hsilent op ?_
        simp only [WritePath.dispatch, Function.update_of_ne (Ne.symm hkey)]
        exact hop
    · rintro event rfl heq
      exact hname heq

end Dispatch

/-! ### The next operation of a handler -/

section Stored

variable {op : Op} {stored : Stored} {handlers : String → List Op}

/-- **An operation without a part in the status** changes no forecast. -/
theorem Silent.forecast (h : Silent c op)
    (hstored : stored = (s.toStored.perform op).getD s.toStored) {status : Option Cell} :
    Forecast c { s with toStored := stored, handlers := handlers } status ↔
      Forecast c s status := by
  cases op with
  | execute stmt =>
    rw [perform_execute] at hstored
    subst hstored
    have hpending : Pending c { s with db := s.db.apply schema stmt, handlers := handlers } ↔
        Pending c s := Iff.rfl
    exact forecast_congr hpending (h s.db)
  | publish record =>
    rw [perform_publish] at hstored
    subst hstored
    have hpending : Pending c
        { s with
          records := s.records ++ ((Json.obj record).transit).toList
          handlers := handlers } ↔ Pending c s := by
      refine or_congr_left ⟨?_, ?_⟩
      · rintro ⟨v, hv, sc, hsc, hcloses⟩
        obtain hv | hv := List.mem_append.mp hv
        · exact ⟨v, hv, sc, hsc, hcloses⟩
        · exact absurd hcloses (h v sc (Option.mem_toList.mp hv) hsc)
      · rintro ⟨v, hv, sc, hsc, hcloses⟩
        exact ⟨v, List.mem_append_left _ hv, sc, hsc, hcloses⟩
    exact forecast_congr hpending rfl

/-- A statement makes the conversation active, and will be undone if its end is pending. -/
theorem forecast_activates {stmt : Statement Table} (h : Activates c stmt)
    (hstored : stored = (s.toStored.perform (.execute stmt)).getD s.toStored) :
    Forecast c { s with toStored := stored, handlers := handlers } (some (.text "active")) ↔
      ¬Pending c s := by
  rw [perform_execute] at hstored
  subst hstored
  have hstatus : statusOf (s.db.apply schema stmt) c = some (.text "active") := h s.db
  have hpending : Pending c
      { s with db := s.db.apply schema stmt, handlers := handlers } ↔ Pending c s := Iff.rfl
  simp [Forecast, hpending, hstatus]

/-- A record ends the conversation. -/
theorem forecast_closes {record : List (String × Json)} {v : Json} {sc : Script}
    (hv : (Json.obj record).transit = some v) (hsc : recordScript v = some sc)
    (h : sc.Closes c)
    (hstored : stored = (s.toStored.perform (.publish record)).getD s.toStored) :
    Forecast c { s with toStored := stored, handlers := handlers } (some (.text "ended")) := by
  rw [perform_publish, hv] at hstored
  subst hstored
  exact Or.inl ⟨Or.inl ⟨v, List.mem_append_right _ (by simp), sc, hsc, h⟩, rfl⟩

end Stored

theorem Own.tail {op : Op} {ops rest : List Op} {last : Option String}
    (h : Own c (op :: ops) last) (hrest : ∀ o ∈ rest, o ∈ ops) : ∀ o ∈ rest, Silent c o := by
  intro o ho
  cases h with
  | silent h => exact h o (List.mem_cons_of_mem _ (hrest o ho))
  | opening _ hops => exact hops o (hrest o ho)
  | ending => exact absurd (hrest o ho) (by simp)

/-- An operation with a part in the status is that of the last lifecycle event. -/
theorem Own.head_cases {op : Op} {ops : List Op} {last : Option String}
    (h : Own c (op :: ops) last) : Silent c op ∨
      (∃ stmt, op = .execute stmt ∧ Activates c stmt ∧ last = some "active") ∨
        ∃ record v sc, op = .publish record ∧ (Json.obj record).transit = some v ∧
          recordScript v = some sc ∧ sc.Closes c ∧ last = some "ended" := by
  cases h with
  | silent h => exact Or.inl (h op (List.mem_cons_self ..))
  | opening h hops => exact Or.inr (Or.inl ⟨_, rfl, h, rfl⟩)
  | ending hv hsc h => exact Or.inr (Or.inr ⟨_, _, _, rfl, hv, hsc, h, rfl⟩)

/-- The next operation of a handler. -/
theorem Shape.head_cases (h : Shape c s) {key : String} {op : Op} {ops : List Op}
    (hops : s.handlers key = op :: ops) : Silent c op ∨
      key = c ∧ ((∃ stmt, op = .execute stmt ∧ Activates c stmt ∧ s.last c = some "active") ∨
        ∃ record v sc, op = .publish record ∧ (Json.obj record).transit = some v ∧
          recordScript v = some sc ∧ sc.Closes c ∧ s.last c = some "ended") := by
  obtain rfl | hkey := eq_or_ne key c
  · have hown := h.own
    rw [hops] at hown
    exact hown.head_cases.imp_right fun hpart => ⟨rfl, hpart⟩
  · exact Or.inl (h.others key hkey op (by simp [hops]))

/-- **A handler goes on.** -/
theorem Shape.hot (h : Shape c s) {key : String} (hs : step s (.hot key) = some s') :
    Shape c s' := by
  cases stepped_of_step hs with
  | @hot _ op ops rest stored hops hstored hrest =>
    refine ⟨h.worker, fun key' hkey' o ho => ?_, ?_, fun hnone => ?_, h.last⟩
    · simp only [Function.update_apply] at ho
      split at ho
      · next heq =>
        refine h.others key' hkey' o ?_
        rw [heq, hops]
        exact List.mem_cons_of_mem _ (mem_of_mem_rest hrest ho)
      · exact h.others key' hkey' o ho
    · simp only [Function.update_apply]
      split
      · next heq =>
        have hown := h.own
        rw [heq, hops] at hown
        exact .silent (heq ▸ hown.tail fun _ => mem_of_mem_rest hrest)
      · exact h.own
    · have hsilent : Silent c op := by
        obtain hsilent | ⟨-, ⟨_, _, _, hlast⟩ | ⟨_, _, _, _, _, _, _, hlast⟩⟩ := h.head_cases hops
        · exact hsilent
        · exact absurd (hlast.symm.trans hnone) (by simp)
        · exact absurd (hlast.symm.trans hnone) (by simp)
      exact fun hended => h.fresh hnone ((hsilent.forecast hstored).mp hended)

/-- **A statement of a handler in time** is one that finds no end of the conversation pending. -/
theorem foretold_hot (h : Shape c s) {key : String} (hs : step s (.hot key) = some s')
    (hf : Foretold c s) : Foretold c s' ↔ InTime c s (.hot key) := by
  cases stepped_of_step hs with
  | @hot _ op ops rest stored hops hstored hrest =>
    have hexecutes : ∀ stmt, s.executes (.hot key) = some stmt ↔ op = .execute stmt := by
      intro stmt
      rw [executes, hops]
      cases op <;> simp
    simp only [InTime, hexecutes, Foretold]
    obtain hsilent | ⟨rfl, hpart⟩ := h.head_cases hops
    · refine iff_of_true (fun hall status hstatus => ?_) ?_
      · refine (hsilent.forecast hstored).mpr (hf (fun o ho => ?_) status hstatus)
        obtain rfl | hkey := eq_or_ne key c
        · rw [hops] at ho
          obtain rfl | ho := List.mem_cons.mp ho
          · exact hsilent
          · have hown := h.own
            rw [hops] at hown
            exact hown.tail (fun _ ho => ho) o ho
        · rw [Function.update_of_ne (Ne.symm hkey)] at hall
          exact hall o ho
      · rintro stmt rfl hactivates
        exact absurd hactivates (hsilent : LeavesStatus c stmt).not_activates
    · have hown := h.own
      rw [hops] at hown
      have hsilent : ∀ o ∈ rest, Silent key o := hown.tail fun _ => mem_of_mem_rest hrest
      rw [Function.update_self]
      obtain ⟨stmt, rfl, hactivates, hactive⟩ | ⟨record, v, sc, rfl, hv, hsc, hcloses, hended⟩ :=
        hpart
      · have hforecast : Forecast key
            { s with toStored := stored, handlers := Function.update s.handlers key rest }
              (some (.text "active")) ↔ ¬Pending key s := forecast_activates hactivates hstored
        constructor
        · rintro hforetold stmt' hstmt -
          exact hforecast.mp (hforetold hsilent "active" hactive)
        · intro hin _ status heq
          obtain rfl : "active" = status := Option.some.inj (hactive.symm.trans heq)
          exact hforecast.mpr (hin stmt rfl hactivates)
      · refine iff_of_true (fun _ status heq => ?_) (by simp)
        obtain rfl : "ended" = status := Option.some.inj (hended.symm.trans heq)
        exact forecast_closes hv hsc hcloses hstored

/-! ### Every step -/

/-- The worker changes neither what the handlers have before them nor what was said last. -/
theorem handlers_workerStep {a : WorkerAction} (hs : workerStep s a = some s') :
    s'.handlers = s.handlers ∧ s'.last = s.last := by
  cases a with
  | take =>
    obtain ⟨-, v, records, -, rfl⟩ := take_cases hs
    exact ⟨rfl, rfl⟩
  | write =>
    obtain ⟨w, -, rfl⟩ := Option.map_eq_some_iff.mp hs
    exact ⟨handlers_work s w, last_work s w⟩

/-- **The worker goes on**, and what it will come to is as before. -/
theorem Shape.workerStep (h : Shape c s) (hc : c ≠ "") {a : WorkerAction}
    (hs : workerStep s a = some s') : Shape c s' ∧ (Foretold c s' ↔ Foretold c s) := by
  obtain ⟨hworker, hforecast⟩ := forecast_workerStep h.worker hc hs
  obtain ⟨hhandlers, hlast⟩ := handlers_workerStep hs
  refine ⟨⟨hworker, hhandlers ▸ h.others, ?_, ?_, hlast ▸ h.last⟩, ?_⟩
  · rw [hhandlers, hlast]
    exact h.own
  · rw [hforecast, hlast]
    exact h.fresh
  · simp only [Foretold, hforecast, hhandlers, hlast]

/-- A handler of another conversation raises. -/
theorem Shape.raise (h : Shape c s) {key : String} (hkey : key ≠ c) :
    Shape c { s with handlers := Function.update s.handlers key [] } where
  worker := h.worker
  others key' hkey' o ho := by
    simp only [Function.update_apply] at ho
    split at ho
    · exact absurd ho (by simp)
    · exact h.others key' hkey' o ho
  own := by
    simp only [Function.update_of_ne (Ne.symm hkey)]
    exact h.own
  fresh := h.fresh
  last := h.last

/-- **A step of a run in order** keeps the shape, and the forecast comes true if it is in time. -/
theorem Shape.stepInOrder (h : Shape c s) (hc : c ≠ "") {a : Action}
    (hs : stepInOrder c s a = some s') :
    Shape c s' ∧ (Foretold c s → (Foretold c s' ↔ InTime c s a)) := by
  obtain ⟨hin, hs⟩ := Option.ite_none_right_eq_some.mp hs
  -- the worker takes the first record, once
  have hworker {b : WorkerAction} (hb : WritePath.workerStep s b = some s')
      (hlaw : InTime c s a) : Shape c s' ∧ (Foretold c s → (Foretold c s' ↔ InTime c s a)) := by
    obtain ⟨hshape, hforetold⟩ := h.workerStep hc hb
    exact ⟨hshape, fun hf => iff_of_true (hforetold.mpr hf) hlaw⟩
  cases stepped_of_step hs with
  | dispatch hkey hidle he =>
    exact ⟨h.dispatch hc (key_of_inOrder hin he),
      foretold_dispatch h hc (key_of_inOrder hin he) he hidle⟩
  | hot => exact ⟨h.hot hs, foretold_hot h hs⟩
  | @raise key =>
    have hkey : key ≠ c := by simpa [inOrder] using hin
    refine ⟨h.raise hkey, fun hf => iff_of_true (fun hsilent => hf ?_) trivial⟩
    simpa only [Function.update_of_ne (Ne.symm hkey)] using hsilent
  | @take n again =>
    obtain ⟨rfl, rfl⟩ : n = 0 ∧ again = false := by simpa [inOrder] using hin
    exact hworker (b := .take) hs trivial
  | write => exact hworker (b := .write) hs trivial
  | fail => exact absurd hin (by simp [inOrder])

/-! ### Whole runs -/

/-- No statement writes a conversation without an id. -/
theorem not_activates_empty (stmt : Statement Table) : ¬Activates "" stmt := by
  refine (leavesStatus_of_not_writesRow ?_).not_activates
  rintro ⟨haccepted, htable, hbound⟩
  simp only [Statement.accepted, Bool.and_eq_true] at haccepted
  have hnamed := haccepted.1.2
  simp [htable, hbound, schema, TableSchema.partitionNamed] at hnamed

/-- A conversation without an id is never started. -/
theorem last_stepInOrder (h : s.last "" = none) {a : Action}
    (hs : stepInOrder "" s a = some s') : s'.last "" = none := by
  obtain ⟨hin, hs⟩ := Option.ite_none_right_eq_some.mp hs
  cases stepped_of_step hs with
  | dispatch hkey _ he =>
    rwa [last_dispatch, if_neg fun hname => hkey (key_of_inOrder hin he hname)]
  | write => rwa [last_work]
  | hot | raise | take | fail => exact h

theorem inTime_empty {a : Action} (hs : stepInOrder "" s a = some s') : InTime "" s a := by
  obtain ⟨hin, hs⟩ := Option.ite_none_right_eq_some.mp hs
  cases stepped_of_step hs with
  | dispatch hkey => exact fun event he hname => absurd (key_of_inOrder hin he hname) hkey
  | hot => exact fun stmt _ hactivates => absurd hactivates (not_activates_empty stmt)
  | raise | take | write | fail => trivial

/-- **The status of a conversation**, exactly: in a run in order it comes, from every state, to what
the last lifecycle event has said, if and only if each statement that makes the conversation active
finds no end of it pending and each `chat_end` that changes anything has the timestamp of a
`datetime`. -/
theorem status_settles_iff (c : String) (schedule : List Action) :
    Transition.Always (stepInOrder c) (Settles c) start schedule ↔
      Transition.Guarded (stepInOrder c) (InTime c) start schedule := by
  by_cases hc : c = ""
  · subst hc
    have hlast : Transition.Always (stepInOrder "") (fun s => s.last "" = none) start schedule :=
      Transition.always_of_invariant (fun _ _ _ h hs => last_stepInOrder h hs) rfl schedule
    refine iff_of_true (hlast.imp fun s hnone _ _ _ _ status heq => ?_)
      (hlast.guarded fun _ _ _ _ hs => inTime_empty hs)
    exact absurd (hnone.symm.trans heq) (by simp)
  · refine Transition.always_iff_guarded (fun _ _ _ h hs => (h.stepInOrder hc hs).1)
      (fun s a s' h hsettles hs => ?_) (Shape.start c)
      fun _ _ _ _ _ heq => absurd heq (by simp [start])
    obtain ⟨hshape, hlaw⟩ := h.stepInOrder hc hs
    rw [hshape.settles_iff_foretold hc]
    exact hlaw ((h.settles_iff_foretold hc).mp hsettles)

/-- A lifecycle event on a socket of `conv-1`. -/
def sent (event_type : String) : Action :=
  .dispatch
    { conversation_id := "conv-1"
      user_id := "customer:conv-1"
      bot_id := "bot-1"
      uuid := "5d7c8b1e"
      timestamp := 1748275200
      data := AList.singleton "event_type" (.str event_type) }
    (.healthy .noon) none

/-- A chat is started, ended and started again before the worker gets to the end of it. -/
def restart : List Action :=
  [sent "chat_start", .hot "conv-1", .hot "conv-1", .hot "conv-1", sent "chat_end", .hot "conv-1",
    sent "chat_start", .hot "conv-1", .hot "conv-1", .hot "conv-1"]

theorem run_restart :
    (Transition.run (stepInOrder "conv-1") start restart).map
        (fun s => (s.handlers "conv-1", s.last "conv-1", (Transition.run workerStep s
          [.take, .write, .write, .write, .take, .write, .write, .take, .write, .write,
            .write]).map fun s' => (s'.records, s'.worker.isNone, statusOf s'.db "conv-1"))) =
      some ([], some "active", some ([], true, some (.text "ended"))) := by
  rfl

/-- The chat is going on, and once all records are consumed the status says that it has ended. -/
theorem not_status_settles :
    ¬∀ c schedule, Transition.Always (stepInOrder c) (Settles c) start schedule := by
  intro h
  obtain ⟨s, hs, heq⟩ := Option.map_eq_some_iff.mp run_restart
  obtain ⟨hidle, heq⟩ := Prod.mk.inj heq
  obtain ⟨hlast, heq⟩ := Prod.mk.inj heq
  obtain ⟨s', hs', heq⟩ := Option.map_eq_some_iff.mp heq
  obtain ⟨hrecords, heq⟩ := Prod.mk.inj heq
  obtain ⟨hworker, hstatus⟩ := Prod.mk.inj heq
  have hsettles : Settles "conv-1" s := (h "conv-1" _).run hs
  have hactive := hsettles (by simp [hidle]) s' (Transition.reachable_of_run rfl hs')
    ⟨hrecords, Option.isNone_iff_eq_none.mp hworker⟩ "active" hlast
  rw [hstatus] at hactive
  exact absurd hactive (by simp)

end WritePath

end TitanChat
