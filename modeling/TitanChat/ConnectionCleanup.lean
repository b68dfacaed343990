import TitanChat.ConnectionManager

/-!
# Cleanups and the sockets they hit

`disconnect` is told a conversation, not a socket, and pops whatever socket the conversation has at
that moment. All its callers decide to call it because of one socket: the endpoint that ends, the
push or the ping that fails, the sweep that finds a conversation stale. Between the decision and the
pop, and again between the pop and the two calls of Redis, a client can come back on a new socket.

So a cleanup on behalf of one socket can hit another one, and the endpoint of a superseded socket
does so whenever it ends while its successor is connected. The exact statement is about the three
moments at which `disconnect` takes something away: each must find nothing, or something of the
socket on whose behalf it was called.

## Main definitions

* `Accounted`: each loss of a socket was caused by that socket, after an event of its own
* `CleansOwn`: the guard of a step
* `Sound`: what every run preserves, that a cleanup under way has a cause with an event

## Main results

* `accounted_iff`: the exact statement
-/

namespace TitanChat

namespace Gateway

/-- Something has happened to the socket itself. -/
def HasEvent (log : List Incident) (w : Socket) : Prop := ∃ e, .event e w ∈ log

/-- Each loss of a socket is the work of a cleanup on behalf of that socket, or of its successor in
`connect`, and an event of the socket itself is on record. -/
def Accounted (log : List Incident) : Prop :=
  ∀ l w cause, .loss l w cause ∈ log → cause = some w ∧ HasEvent log w

/-- What the awaited call of `disconnect` deletes, if it takes effect, belongs to the socket on
whose behalf it was made. -/
def DeletesOwn (s : State) : Pc → Prop
  | .unregistering d => ∀ w, s.registry d.conversation_id = some w → d.cause = some w
  | .offlining d _ => s.online d.conversation_id →
    ∀ w, s.latest d.conversation_id = some w → d.cause = some w
  | _ => True

/-- What `disconnect` is about to take away belongs to the socket on whose behalf it was called: the
entry of `connections` when it begins, the registry key when the `DEL` takes effect, and the
tracker's entry when the pipeline does. -/
def CleansOwn (s : State) : Action → Prop
  | .resume t => ∀ r, s.wakes t = some r →
    match (proceed s (s.tasks t).pc r).2 with
    | .disconnect c cause _ => ∀ w, s.connections.lookup c = some w → cause = some w
    | .await _ => True
  | .answer t r => r = .done ∨ r = .lost → DeletesOwn s (s.tasks t).pc
  | _ => True

/-! ### What every run preserves -/

/-- If a cleanup has a cause, something has happened to that socket. -/
def Justified (log : List Incident) (cause : Option Socket) : Prop :=
  ∀ w, cause = some w → HasEvent log w

def After.Sound (log : List Incident) : After → Prop
  | .inFinally _ w => HasEvent log w
  | .sweep rest _ => ∀ e ∈ rest, Justified log e.2
  | .done | .release _ => True

structure Cleanup.Sound (log : List Incident) (d : Cleanup) : Prop where
  cause : Justified log d.cause
  /-- The socket that `disconnect` will close has lost its entry to the same cause. -/
  popped : ∀ x, d.websocket = some x → .loss .entry x d.cause ∈ log
  after : d.after.Sound log

def Pc.Sound (log : List Incident) : Pc → Prop
  | .pinging _ _ _ stale => ∀ e ∈ stale, Justified log e.2
  | .unregistering d | .reading d | .offlining d _ | .closing d => d.Sound log
  | _ => True

def Then.Sound (log : List Incident) : Then → Prop
  | .await pc => pc.Sound log
  | .disconnect _ cause after => Justified log cause ∧ after.Sound log

/-- Each cleanup that a task is in, or will begin, is on behalf of a socket with an event. -/
def Sound (s : State) : Prop := ∀ t, (s.tasks t).pc.Sound s.log

section Mono

variable {log log' : List Incident}

theorem HasEvent.mono {w : Socket} (h : HasEvent log w) (hle : log ⊆ log') : HasEvent log' w := by
  obtain ⟨e, he⟩ := h
  exact ⟨e, hle he⟩

theorem Justified.mono {cause : Option Socket} (h : Justified log cause) (hle : log ⊆ log') :
    Justified log' cause :=
  fun w hw => (h w hw).mono hle

theorem After.Sound.mono {after : After} (h : after.Sound log) (hle : log ⊆ log') :
    after.Sound log' := by
  cases after with
  | inFinally c w => exact HasEvent.mono h hle
  | done | release => trivial
  | sweep rest next => exact fun e he => (h e he).mono hle

theorem Cleanup.Sound.mono {d : Cleanup} (h : d.Sound log) (hle : log ⊆ log') : d.Sound log' where
  cause := h.cause.mono hle
  popped x hx := hle (h.popped x hx)
  after := h.after.mono hle

theorem Pc.Sound.mono {pc : Pc} (h : pc.Sound log) (hle : log ⊆ log') : pc.Sound log' := by
  cases pc with
  | pinging c w rest stale => exact fun e he => (h e he).mono hle
  | unregistering d | reading d | offlining d | closing d => exact Cleanup.Sound.mono h hle
  | _ => trivial

end Mono

/-- A cause that has an event accounts for what it takes, if that is its own. -/
theorem accounted_append_losses {log : List Incident} (h : Accounted log) {cause : Option Socket}
    (hc : Justified log cause) (l : Loss) (o : Option Socket) :
    Accounted (log ++ o.toList.map fun x => .loss l x cause) ↔
      ∀ w, o = some w → cause = some w := by
  constructor
  · rintro hacc w rfl
    exact (hacc l w cause (by simp)).1
  · intro how l' w cause' hmem
    rcases List.mem_append.mp hmem with hmem | hmem
    · obtain ⟨hcause, hev⟩ := h l' w cause' hmem
      exact ⟨hcause, hev.mono (List.subset_append_left ..)⟩
    · obtain ⟨x, hx, heq⟩ := List.mem_map.mp hmem
      obtain ⟨rfl, rfl, rfl⟩ := Incident.loss.inj heq
      have hown : cause = some x := how x (Option.mem_toList.mp hx)
      exact ⟨hown, (hc x hown).mono (List.subset_append_left ..)⟩

/-! ### From one await to the next -/

/-- The tables may change and the log may grow, but every new loss is accounted for. -/
structure Calm (s s' : State) : Prop where
  tasks : s'.tasks = s.tasks
  log : s.log ⊆ s'.log
  /-- A new loss follows an event, or the loss of an entry to the same cause. -/
  losses : ∀ l w cause, .loss l w cause ∈ s'.log → .loss l w cause ∈ s.log ∨
    .loss .entry w cause ∈ s.log ∨ cause = some w ∧ HasEvent s'.log w

namespace Calm

variable {s s' : State}

theorem of_log_eq (htasks : s'.tasks = s.tasks) (hlog : s'.log = s.log) : Calm s s' where
  tasks := htasks
  log := by rw [hlog]; exact List.Subset.refl _
  losses l w cause h := Or.inl (hlog ▸ h)

theorem refl (s : State) : Calm s s := of_log_eq rfl rfl

/-- Events are no losses. -/
theorem note_events (s : State) (e : Event) (ws : List Socket) :
    Calm s (s.note (ws.map (.event e))) where
  tasks := rfl
  log := List.subset_append_left ..
  losses l w cause h := by
    rcases List.mem_append.mp h with h | h
    · exact Or.inl h
    · obtain ⟨x, -, hx⟩ := List.mem_map.mp h
      exact absurd hx (by simp)

theorem supersede (s : State) (c : String) : Calm s (s.supersede c) where
  tasks := rfl
  log := List.subset_append_left ..
  losses l w cause h := by
    rcases List.mem_append.mp h with hold | hnew
    · exact Or.inl hold
    · obtain ⟨x, hx, hmem⟩ := List.mem_flatMap.mp hnew
      simp only [List.mem_cons, reduceCtorEq, Incident.loss.injEq, List.not_mem_nil, or_false,
        false_or] at hmem
      obtain ⟨-, rfl, rfl⟩ := hmem
      refine Or.inr (Or.inr ⟨rfl, .superseded, ?_⟩)
      exact List.mem_append_right _ (List.mem_flatMap.mpr ⟨w, hx, by simp⟩)

theorem store (s : State) (c : String) (w : Socket) : Calm s (s.store c w) where
  tasks := rfl
  log := (supersede s c).log
  losses := (supersede s c).losses

theorem accounted (h : Calm s s') (hacc : Accounted s.log) : Accounted s'.log := by
  intro l w cause hmem
  rcases h.losses l w cause hmem with hold | hentry | hnew
  · exact ⟨(hacc l w cause hold).1, (hacc l w cause hold).2.mono h.log⟩
  · exact ⟨(hacc .entry w cause hentry).1, (hacc .entry w cause hentry).2.mono h.log⟩
  · exact hnew

end Calm

/-- What is true of a task when it stops running. -/
structure Proceeds (s : State) (p : State × Then) : Prop where
  calm : Calm s p.1
  sound : p.2.Sound p.1.log
  /-- `disconnect` finds the table as the task found it. -/
  connections : ∀ c cause after, p.2 = .disconnect c cause after → p.1.connections = s.connections

variable {s s' : State}

namespace Proceeds

theorem await {pc : Pc} (hcalm : Calm s s') (hpc : pc.Sound s'.log) :
    Proceeds s (s', .await pc) where
  calm := hcalm
  sound := hpc
  connections c cause after h := by simp at h

/-- Nothing but the log changes. -/
theorem of_connections {next : Then} (hcalm : Calm s s') (hnext : next.Sound s'.log)
    (hconn : s'.connections = s.connections) : Proceeds s (s', next) where
  calm := hcalm
  sound := hnext
  connections _ _ _ _ := hconn

end Proceeds

theorem evict_sound {log : List Incident} {list : List (String × Option Socket)} (next : Round)
    (h : ∀ e ∈ list, Justified log e.2) : (evict list next).Sound log := by
  cases list with
  | nil => trivial
  | cons e rest =>
    exact ⟨h e (List.mem_cons_self ..), fun e' he => h e' (List.mem_cons_of_mem _ he)⟩

theorem ping_sound {log : List Incident} (list : List (String × Socket))
    {stale : List (String × Option Socket)} (h : ∀ e ∈ stale, Justified log e.2) :
    (ping list stale).Sound log := by
  cases list with
  | nil => exact evict_sound _ h
  | cons e rest => exact h

/-- An event of the socket itself justifies what is done on its behalf. -/
theorem justified_note (s : State) (e : Event) (w : Socket) :
    Justified (s.note [.event e w]).log (some w) := by
  intro x hx
  obtain rfl := Option.some.inj hx
  exact ⟨e, List.mem_append_right _ (List.mem_singleton.mpr rfl)⟩

theorem proceeds_leave (s : State) (c : String) (w : Socket) (r : Reply) :
    Proceeds s (s.leave c w r) := by
  have hown : Justified (s.note [.event .ended w]).log (some w) := justified_note s .ended w
  refine .of_connections (.note_events s .ended [w]) ⟨hown, ?_⟩ rfl
  cases r with
  | disconnected => exact hown w rfl
  | _ => trivial

theorem proceeds_returns {after : After} (h : after.Sound s.log) (raised : Bool) :
    Proceeds s (s.returns after raised) := by
  cases after with
  | inFinally c w =>
    refine .of_connections (.refl s) ⟨fun x hx => ?_, trivial⟩ rfl
    exact Option.some.inj hx ▸ h
  | done => exact .await (.refl s) trivial
  | release lock => exact .await (.of_log_eq rfl rfl) trivial
  | sweep rest next =>
    cases raised with
    | true => exact .await (.refl s) trivial
    | false => exact .of_connections (.refl s) (evict_sound next h) rfl

theorem proceeds_finish {d : Cleanup} (h : d.Sound s.log) : Proceeds s (s.finish d) := by
  rw [State.finish]
  split
  · next x hx =>
    have hcalm : Calm s (s.note [.loss .connection x d.cause]) := by
      refine ⟨rfl, List.subset_append_left .., fun l w cause hmem => ?_⟩
      rcases List.mem_append.mp hmem with hmem | hmem
      · exact Or.inl hmem
      · obtain ⟨-, rfl, rfl⟩ := Incident.loss.inj (List.mem_singleton.mp hmem)
        exact Or.inr (Or.inl (h.popped w hx))
    exact .await hcalm (h.mono hcalm.log)
  · exact proceeds_returns h.after false

/-- **From one await to the next**, nothing is taken from a socket that is not accounted for. -/
theorem proceeds_proceed {pc : Pc} (h : pc.Sound s.log) (r : Reply) :
    Proceeds s (proceed s pc r) := by
  cases pc with
  | superseding c w old => exact .await (.refl s) trivial
  | accepting c w =>
    cases r with
    | done => exact .await (.store s c w) trivial
    | _ => exact .await (.refl s) trivial
  | registering c w => cases r <;> exact .await (.refl s) trivial
  | refusing w => exact .await (.refl s) trivial
  | receiving c w =>
    cases r with
    | data v => exact .await (.of_log_eq rfl rfl) trivial
    | _ =>
      rw [proceed]
      · exact proceeds_leave ..
      all_goals simp
  | refreshing c w v =>
    cases r with
    | done =>
      rw [proceed]
      split
      · exact proceeds_leave s c w _
      · split <;> exact .await (.refl s) trivial
    | _ =>
      rw [proceed]
      · exact proceeds_leave ..
      all_goals simp
  | processing c w =>
    cases r with
    | done => exact .await (.refl s) trivial
    | _ =>
      rw [proceed]
      · exact proceeds_leave ..
      all_goals simp
  | locking c w lock => exact .await (.of_log_eq rfl rfl) trivial
  | sending c w lock =>
    cases r with
    | done => exact .await (.of_log_eq rfl rfl) trivial
    | _ =>
      have hcause := justified_note s .sendFailed w
      exact .of_connections (.note_events s .sendFailed [w]) ⟨hcause, trivial⟩ rfl
  | pinging c w rest stale =>
    -- a failed ping puts the conversation on the list, on behalf of the socket it was sent to
    have hfailed :
        Proceeds s (s.note [.event .sendFailed w], ping rest (stale ++ [(c, some w)])) := by
      refine .of_connections (.note_events s .sendFailed [w]) (ping_sound rest fun e he => ?_) rfl
      rcases List.mem_append.mp he with he | he
      · exact (h e he).mono (List.subset_append_left ..)
      · obtain rfl := List.mem_singleton.mp he
        exact justified_note s .sendFailed w
    cases r with
    | done => exact .of_connections (.refl s) (ping_sound rest h) rfl
    | _ => exact hfailed
  | sleeping next =>
    cases next with
    | ping => exact .of_connections (.refl s) (ping_sound _ (by simp)) rfl
    | evict =>
      refine .of_connections (.note_events s .timedOut _) (evict_sound _ fun e he w hw => ?_) rfl
      refine ⟨.timedOut, List.mem_append_right _ (List.mem_map_of_mem ?_)⟩
      exact List.mem_filterMap.mpr ⟨e, he, hw⟩
  | unregistering d =>
    cases r with
    | done => exact .await (.refl s) h
    | _ => exact proceeds_returns h.after true
  | reading d =>
    cases r with
    | found meta_ =>
      rw [proceed]
      split
      · exact proceeds_finish h
      · exact .await (.refl s) h
    | _ => exact proceeds_returns h.after true
  | offlining d meta_ =>
    cases r with
    | done => exact proceeds_finish h
    | _ => exact proceeds_returns h.after true
  | closing d => exact proceeds_returns h.after false
  | finished => exact .await (.refl s) trivial

/-! ### Steps -/

theorem Sound.start : Sound .start := by
  intro t
  simp only [State.start]
  split <;> trivial

/-- A task is suspended somewhere else, or created. -/
theorem Sound.goto (h : Sound s) (s' : State) (t : ℕ) (pc : Pc) (htasks : s'.tasks = s.tasks)
    (hlog : s.log ⊆ s'.log) (hpc : pc.Sound s'.log) : Sound (s'.goto t pc) := by
  intro u
  simp only [State.goto, Function.update_apply, htasks]
  split
  · exact hpc
  · exact (h u).mono hlog

theorem Sound.calm (h : Sound s) (hcalm : Calm s s') : Sound s' := by
  intro t
  rw [hcalm.tasks]
  exact (h t).mono hcalm.log

/-- **The beginning of `disconnect`** is accounted for exactly if it pops the socket on whose behalf
it was called, or none. -/
theorem accounted_disconnect (hacc : Accounted s.log) {cause : Option Socket}
    (hc : Justified s.log cause) (t : ℕ) (c : String) (after : After) :
    Accounted (s.disconnect t c cause after).log ↔
      ∀ w, s.connections.lookup c = some w → cause = some w :=
  accounted_append_losses hacc hc .entry _

theorem Sound.disconnect (h : Sound s) {cause : Option Socket} (hc : Justified s.log cause)
    {after : After} (ha : after.Sound s.log) (t : ℕ) (c : String) :
    Sound (s.disconnect t c cause after) := by
  let log := s.log ++ (s.connections.lookup c).toList.map fun x => .loss .entry x cause
  have hle : s.log ⊆ log := List.subset_append_left ..
  have hd : Cleanup.Sound log
      { conversation_id := c, cause, websocket := s.connections.lookup c, after } := by
    refine ⟨hc.mono hle, fun x hx => ?_, ha.mono hle⟩
    exact List.mem_append_right _ (List.mem_map.mpr ⟨x, Option.mem_toList.mpr hx, rfl⟩)
  exact h.goto (State.forget (s.note _) c) t (.unregistering _) rfl hle hd

/-- A task that is resumed. -/
theorem Proceeds.perform {p : State × Then} (hp : Proceeds s p) (hs : Sound s) (t : ℕ) :
    Sound (p.1.perform t p.2) ∧ (Accounted s.log → (Accounted (p.1.perform t p.2).log ↔
      match p.2 with
      | .disconnect c cause _ => ∀ w, s.connections.lookup c = some w → cause = some w
      | .await _ => True)) := by
  obtain ⟨s', next⟩ := p
  cases next with
  | await pc =>
    exact ⟨hs.goto s' t pc hp.calm.tasks hp.calm.log hp.sound,
      fun hacc => iff_of_true (hp.calm.accounted hacc) trivial⟩
  | disconnect c cause after =>
    obtain ⟨hc, ha⟩ := hp.sound
    refine ⟨(hs.calm hp.calm).disconnect hc ha t c, fun hacc => ?_⟩
    rw [← hp.connections c cause after rfl]
    exact accounted_disconnect (hp.calm.accounted hacc) hc t c after

/-- `connect` supersedes the socket that it finds. -/
theorem calm_connect (s : State) (c : String) :
    ∃ s' pc, Calm s s' ∧ pc.Sound s'.log ∧ s.connect c = s'.spawn pc := by
  rw [State.connect]
  split
  · exact ⟨s, .accepting c s.created, .refl s, trivial, rfl⟩
  · next existing _ =>
    exact ⟨(s.supersede c).forget c, .superseding c s.created existing,
      ⟨rfl, (Calm.supersede s c).log, (Calm.supersede s c).losses⟩, trivial, rfl⟩

/-- `send_message` takes nothing away before it has sent. -/
theorem calm_sendMessage (s : State) (c : String) : s.sendMessage c = s ∨
    ∃ s' pc, Calm s s' ∧ pc.Sound s'.log ∧ s.sendMessage c = s'.spawn pc := by
  rw [State.sendMessage]
  split
  · next w lock _ _ =>
    split
    · exact Or.inr ⟨s, .locking c w lock, .refl s, trivial, rfl⟩
    · exact Or.inr ⟨s.setLock lock true, .sending c w lock, .of_log_eq rfl rfl, trivial, rfl⟩
  · exact Or.inl rfl

theorem Sound.spawn (h : Sound s) (hcalm : Calm s s') {pc : Pc} (hpc : pc.Sound s'.log) :
    Sound (s'.spawn pc) :=
  h.goto s' s'.created pc hcalm.tasks hcalm.log hpc

/-- **The calls of Redis.** A call that takes effect is accounted for exactly if what it deletes is
of the socket on whose behalf `disconnect` was called. -/
theorem accounted_effect (hacc : Accounted s.log) {pc : Pc} (hpc : pc.Sound s.log) :
    Accounted (s.effect pc).log ↔ DeletesOwn s pc := by
  cases pc with
  | unregistering d => exact accounted_append_losses hacc hpc.cause .registration _
  | offlining d meta_ =>
    simp only [State.effect, State.note, DeletesOwn]
    cases s.online d.conversation_id with
    | true => simpa using accounted_append_losses hacc hpc.cause .chat _
    | false => simpa using hacc
  | _ => exact iff_of_true hacc trivial

theorem accounted_settle (hacc : Accounted s.log) {pc : Pc} (hpc : pc.Sound s.log) (r : Reply) :
    Accounted (s.settle pc r).log ↔ (r = .done ∨ r = .lost → DeletesOwn s pc) := by
  cases r with
  | done | lost => simpa [State.settle] using accounted_effect hacc hpc
  | _ => simpa [State.settle] using hacc

theorem subset_settle (s : State) (pc : Pc) (r : Reply) : s.log ⊆ (s.settle pc r).log := by
  have heffect : s.log ⊆ (s.effect pc).log := by
    cases pc with
    | unregistering | offlining => exact List.subset_append_left ..
    | _ => exact List.Subset.refl _
  cases r with
  | done | lost => exact heffect
  | _ => exact List.Subset.refl _

/-- An await that is answered: the reply waits, and the task stays where it is. -/
theorem log_answer {t : ℕ} {r : Reply} (h : s.answer t r = some s') :
    s'.log = (s.settle (s.tasks t).pc r).log ∧ ∀ u, (s'.tasks u).pc = (s.tasks u).pc := by
  rw [State.answer, Option.ite_none_right_eq_some] at h
  obtain ⟨-, h⟩ := h
  obtain rfl := Option.some.inj h
  refine ⟨rfl, fun u => ?_⟩
  simp only [Function.update_apply]
  split
  · next hu => rw [hu]
  · rfl

/-- A cleanup under way has a cause with an event, before and after every step. -/
theorem Sound.step (h : Sound s) {a : Action} (hs : step s a = some s') : Sound s' := by
  cases a with
  | connect c =>
    obtain ⟨s₁, pc, hcalm, hpc, heq⟩ := calm_connect s c
    obtain rfl := Option.some.inj hs
    rw [heq]
    exact h.spawn hcalm hpc
  | sendMessage c =>
    obtain rfl := Option.some.inj hs
    rcases calm_sendMessage s c with heq | ⟨s₁, pc, hcalm, hpc, heq⟩
    · rwa [heq]
    · rw [heq]
      exact h.spawn hcalm hpc
  | answer t r =>
    obtain ⟨hlog, hpcs⟩ := log_answer hs
    intro u
    rw [hlog, hpcs]
    exact (h u).mono (subset_settle s _ r)
  | resume t =>
    obtain ⟨r, -, rfl⟩ := Option.map_eq_some_iff.mp hs
    exact ((proceeds_proceed (h t) r).perform h t).1
  | clock now | expire c | track tracker =>
    obtain rfl := Option.some.inj hs
    exact h

/-- **One step** is accounted for exactly if it was guarded. -/
theorem accounted_step (h : Sound s) (hacc : Accounted s.log) {a : Action}
    (hs : step s a = some s') : Accounted s'.log ↔ CleansOwn s a := by
  cases a with
  | connect c =>
    obtain ⟨s₁, pc, hcalm, -, heq⟩ := calm_connect s c
    obtain rfl := Option.some.inj hs
    rw [heq]
    exact iff_of_true (hcalm.accounted hacc) trivial
  | sendMessage c =>
    obtain rfl := Option.some.inj hs
    refine iff_of_true ?_ trivial
    rcases calm_sendMessage s c with heq | ⟨s₁, pc, hcalm, -, heq⟩
    · rwa [heq]
    · rw [heq]
      exact hcalm.accounted hacc
  | answer t r =>
    rw [(log_answer hs).1]
    exact accounted_settle hacc (h t) r
  | resume t =>
    obtain ⟨r, hr, rfl⟩ := Option.map_eq_some_iff.mp hs
    rw [((proceeds_proceed (h t) r).perform h t).2 hacc, CleansOwn]
    constructor
    · intro hown r' hr'
      obtain rfl := Option.some.inj (hr.symm.trans hr')
      exact hown
    · exact fun hown => hown r hr
  | clock now | expire c | track tracker =>
    obtain rfl := Option.some.inj hs
    exact iff_of_true hacc trivial

/-! ### Whole runs -/

/-- **Cleanups and sockets.** In every interleaving, each loss of a socket is accounted for in every
state exactly if, in each of its steps, what a `disconnect` takes away is of the socket on whose
behalf it was called. -/
theorem accounted_iff (as : List Action) :
    Transition.Always step (fun s => Accounted s.log) .start as ↔
      Transition.Guarded step CleansOwn .start as :=
  Transition.always_iff_guarded (fun _ _ _ h => h.step) (fun _ _ _ h hacc => accounted_step h hacc)
    Sound.start (fun l w cause h => by simp [State.start] at h)

/-- A client connects, connects again, and then the endpoint of its first socket sees that this
socket was closed. -/
def reconnection : List Action :=
  [.connect "conv-1", .answer 1 .done, .resume 1, .answer 1 .done, .resume 1,
    .connect "conv-1", .answer 2 .done, .resume 2, .answer 2 .done, .resume 2, .answer 2 .done,
    .resume 2, .answer 1 .disconnected, .resume 1]

theorem log_reconnection : (Transition.run step .start reconnection).map State.log =
    some [.event .superseded 1, .loss .entry 1 (some 1), .event .ended 1,
      .loss .entry 2 (some 1)] := by
  decide

/-- The first socket takes the second one down. -/
theorem not_accounted :
    ¬∀ as, Transition.Always step (fun s => Accounted s.log) .start as := by
  intro h
  obtain ⟨s, hs, hlog⟩ := Option.map_eq_some_iff.mp log_reconnection
  have hacc : Accounted s.log := (h reconnection).run hs
  have hcause : some 1 = some 2 := (hacc .entry 2 (some 1) (by rw [hlog]; simp)).1
  exact absurd hcause (by simp)

end Gateway

end TitanChat
