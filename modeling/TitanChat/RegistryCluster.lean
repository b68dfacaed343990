import TitanChat.ConnectionCleanup

/-!
# The registry of several gateways

The key `ws:conn:{conversation_id}` is shared by all gateways. `connect` sets it and `disconnect`
deletes it, both without looking at it, so a gateway that cleans up after an old socket deletes the
entry of the gateway that the client has come back on.

Each gateway runs as in `ConnectionManager`, on its own, and the registry is the one that they
share: of the calls of Redis, `command` is what is done to it. A connect is complete when its `SET`
has been done; the heartbeat's `EXPIRE` changes no entry. Entries do not run out here.

## Main definitions

* `Cluster`, `Cluster.step`: the gateways with their registry
* `Newest`: the socket of the last connect that was completed, and whether it is over
* `Cluster.Current`: the registry points to the gateway of that socket
* `Cluster.Spares`: the condition on a step

## Main results

* `registry_of_step`: a gateway alone treats its registry by these commands
* `current_step_iff`: a step keeps the registry current exactly under its condition
* `current_iff`: the same for whole runs
-/

namespace TitanChat

namespace Gateway

/-! ### Commands on the registry -/

/-- What a call of Redis does to the registry. -/
inductive Command where
  /-- `SET`, in the `connect` of a socket. If the reply is lost the `connect` raises. -/
  | set (conversation_id : String) (w : Socket) (completes : Bool)
  | del (conversation_id : String)

/-- The command that takes effect in a step. -/
def command (s : State) : Action → Option Command
  | .answer t r =>
    match (s.tasks t).pc, r with
    | .registering c w, .done => some (.set c w true)
    | .registering c w, .lost => some (.set c w false)
    | .unregistering d, .done | .unregistering d, .lost => some (.del d.conversation_id)
    | _, _ => none
  | _ => none

/-- The registry after a command, when `x` is what a `SET` writes. -/
def Command.apply {ν : Type} (x : Socket → ν) (registry : String → Option ν) :
    Command → String → Option ν
  | .set c w _ => Function.update registry c (some (x w))
  | .del c => Function.update registry c none

/-- The socket's endpoint has left its loop, or the socket has failed or timed out. -/
def Incident.ends (w : Socket) : Incident → Bool
  | .event .ended v | .event .sendFailed v | .event .timedOut v => v = w
  | .event .superseded _ | .loss _ _ _ => false

/-! ### The cluster -/

/-- The socket of a connect. -/
structure Newest where
  /-- The gateway, for its `SERVER_ID`. -/
  server : ℕ
  socket : Socket
  /-- Since the connect was completed the endpoint has left its loop, or the socket was evicted. -/
  isOver : Bool
  deriving DecidableEq

/-- What a step of gateway `g` adds to its log may end the newest socket. -/
def Newest.after (n : Newest) (g : ℕ) (incidents : List Incident) : Newest :=
  { n with isOver := n.isOver || (n.server = g && incidents.any (Incident.ends n.socket)) }

structure Cluster where
  gateways : ℕ → State
  /-- `ws:conn:{conversation_id}`. -/
  registry : String → Option ℕ
  /-- The last connect that was completed for a conversation. -/
  newest : String → Option Newest

namespace Cluster

def start : Cluster := ⟨fun _ => .start, fun _ => none, fun _ => none⟩

/-- `get_server_for_connection`. -/
def getServerForConnection (s : Cluster) (conversation_id : String) : Option ℕ :=
  s.registry conversation_id

/-- The newest socket after a command of gateway `g`. -/
def record (g : ℕ) (newest : String → Option Newest) : Option Command → String → Option Newest
  | some (.set c w true) => Function.update newest c (some ⟨g, w, false⟩)
  | _ => newest

/-- The cluster after a step of gateway `g` that leaves it in state `next`. -/
def advance (s : Cluster) (g : ℕ) (a : Action) (next : State) : Cluster :=
  let incidents := next.log.drop (s.gateways g).log.length
  let x := command (s.gateways g) a
  { gateways := Function.update s.gateways g next
    registry := x.elim s.registry (Command.apply (fun _ => g) s.registry)
    newest := record g (fun c => (s.newest c).map (·.after g incidents)) x }

/-- Gateway `g` takes a step. -/
def step (s : Cluster) : ℕ × Action → Option Cluster
  | (_, .expire _) => none
  | (g, a) => (Gateway.step (s.gateways g) a).map (s.advance g a)

/-- **The registry points to the newest gateway.** -/
def Current (s : Cluster) : Prop :=
  ∀ c n, s.newest c = some n → n.isOver = false → s.getServerForConnection c = some n.server

/-- **The condition.** A `DEL` finds no newest socket, or one that is over; and a `SET` that then
raises finds one of the same gateway, or the same. -/
def Spares (s : Cluster) (a : ℕ × Action) : Prop :=
  match command (s.gateways a.1) a.2 with
  | some (.del c) => ∀ n, s.newest c = some n → n.isOver = true
  | some (.set c _ false) => ∀ n, s.newest c = some n → n.isOver = false → n.server = a.1
  | _ => True

end Cluster

/-! ### One gateway -/

section

variable {s s' : State}

theorem registry_returns (s : State) (after : After) (raised : Bool) :
    (s.returns after raised).1.registry = s.registry := by
  cases after <;> rfl

theorem registry_finish (s : State) (d : Cleanup) : (s.finish d).1.registry = s.registry := by
  rw [State.finish]
  split
  · rfl
  · exact registry_returns ..

/-- What a task does between two awaits is not done to the registry. -/
theorem registry_proceed (s : State) (pc : Pc) (r : Reply) :
    (proceed s pc r).1.registry = s.registry := by
  rw [proceed.eq_def]
  split
  case h_9 v =>
    cases v.dict? with
    | none => rfl
    | some data => dsimp only; split <;> rfl
  case h_20 d meta_ =>
    split
    · exact registry_finish s d
    · rfl
  all_goals first | rfl | exact registry_returns .. | exact registry_finish ..

theorem registry_perform (s : State) (t : ℕ) (next : Then) :
    (s.perform t next).registry = s.registry := by
  cases next <;> rfl

/-- An answer is the only step with a command. -/
theorem answer_of_command {a : Action} {x : Command} (hx : command s a = some x) :
    ∃ t r, a = .answer t r ∧ (r = .done ∨ r = .lost) := by
  cases a with
  | answer t r =>
    refine ⟨t, r, rfl, ?_⟩
    cases r with
    | done => exact Or.inl rfl
    | lost => exact Or.inr rfl
    | _ => cases hpc : (s.tasks t).pc <;> simp [command, hpc] at hx
  | _ => simp [command] at hx

theorem registry_settle (s : State) (t : ℕ) (r : Reply) :
    (s.settle (s.tasks t).pc r).registry =
      (command s (.answer t r)).elim s.registry (Command.apply id s.registry) := by
  cases hpc : (s.tasks t).pc <;> cases r <;> simp [command, hpc, State.settle, State.effect,
    Command.apply, State.note]

/-- **A gateway alone** treats its registry by these commands. -/
theorem registry_of_step {a : Action} (ha : ∀ c, a ≠ .expire c) (hs : Gateway.step s a = some s') :
    s'.registry = (command s a).elim s.registry (Command.apply id s.registry) := by
  cases a with
  | connect c =>
    obtain rfl := Option.some.inj hs
    rw [State.connect]
    split <;> rfl
  | sendMessage c =>
    obtain rfl := Option.some.inj hs
    rw [State.sendMessage]
    split
    · split <;> rfl
    · rfl
  | answer t r =>
    rw [Gateway.step, State.answer, Option.ite_none_right_eq_some] at hs
    obtain ⟨-, hs⟩ := hs
    obtain rfl := Option.some.inj hs
    exact registry_settle s t r
  | resume t =>
    obtain ⟨r, -, rfl⟩ := Option.map_eq_some_iff.mp hs
    exact (registry_perform _ t _).trans (registry_proceed s _ r)
  | clock now | track tracker =>
    obtain rfl := Option.some.inj hs
    rfl
  | expire c => exact absurd rfl (ha c)

theorem not_ends_losses (o : Option Socket) (l : Loss) (cause : Option Socket) (w : Socket) :
    (o.toList.map fun x => Incident.loss l x cause).any (Incident.ends w) = false := by
  cases o <;> rfl

/-- An answered call ends no socket. -/
theorem not_ends_of_answer {t : ℕ} {r : Reply} (hs : s.answer t r = some s') (w : Socket) :
    (s'.log.drop s.log.length).any (Incident.ends w) = false := by
  have heffect : ∀ pc, ((s.effect pc).log.drop s.log.length).any (Incident.ends w) = false := by
    intro pc
    cases pc with
    | unregistering d =>
      rw [State.effect, State.note, List.drop_left]
      exact not_ends_losses ..
    | offlining d meta_ =>
      rw [State.effect, State.note, List.drop_left]
      split
      · exact not_ends_losses ..
      · rfl
    | _ => simp [State.effect]
  rw [(log_answer hs).1]
  cases r with
  | done | lost => exact heffect _
  | _ => simp [State.settle]

end

/-! ### One step of the cluster -/

namespace Cluster

variable {s s' : Cluster}

theorem step_cases {g : ℕ} {a : Action} (hs : step s (g, a) = some s') :
    ∃ next, Gateway.step (s.gateways g) a = some next ∧ s' = s.advance g a next := by
  have hmap : (Gateway.step (s.gateways g) a).map (s.advance g a) = some s' := by
    cases a with
    | expire c => simp [step] at hs
    | _ => exact hs
  obtain ⟨next, hnext, rfl⟩ := Option.map_eq_some_iff.mp hmap
  exact ⟨next, hnext, rfl⟩

/-- The step without a command. -/
theorem Current.of_no_command (h : Current s) {g : ℕ} {a : Action}
    (hs : step s (g, a) = some s') (hx : command (s.gateways g) a = none) : Current s' := by
  obtain ⟨next, -, rfl⟩ := step_cases hs
  intro c n hn hover
  simp only [advance, hx, record, Option.map_eq_some_iff] at hn
  obtain ⟨m, hm, rfl⟩ := hn
  have hm' : m.isOver = false := by
    simp only [Newest.after, Bool.or_eq_false_iff] at hover
    exact hover.1
  have hc : s.registry c = some m.server := h c m hm hm'
  simpa [getServerForConnection, advance, hx, Newest.after] using hc

/-- The step with a command: what was newest is as it was. -/
theorem newest_of_command {g : ℕ} {a : Action} {x : Command} (hs : step s (g, a) = some s')
    (hx : command (s.gateways g) a = some x) :
    s'.registry = x.apply (fun _ => g) s.registry ∧ s'.newest = record g s.newest (some x) := by
  obtain ⟨next, hnext, rfl⟩ := step_cases hs
  obtain ⟨t, r, rfl, -⟩ := answer_of_command hx
  refine ⟨by simp [advance, hx], ?_⟩
  have hsame : (fun c => (s.newest c).map
      (·.after g (next.log.drop (s.gateways g).log.length))) = s.newest := by
    funext c
    simp [Newest.after, not_ends_of_answer hnext]
  simp only [advance, hx, hsame]

/-- **One step** keeps the registry current exactly under its condition. -/
theorem current_step_iff (h : Current s) {a : ℕ × Action} (hs : step s a = some s') :
    Current s' ↔ Spares s a := by
  obtain ⟨g, a⟩ := a
  cases hx : command (s.gateways g) a with
  | none => simpa [Spares, hx] using h.of_no_command hs hx
  | some x =>
    obtain ⟨hregistry, hnewest⟩ := newest_of_command hs hx
    simp only [Current, Spares, getServerForConnection, hregistry, hnewest, hx]
    cases x with
    | del c =>
      constructor
      · intro h' n hn
        by_contra hover
        have := h' c n hn (by simpa using hover)
        simp [Command.apply] at this
      · intro hover d n hn hlive
        rcases eq_or_ne d c with rfl | hne
        · simp [hover n hn] at hlive
        · have hd : s.registry d = some n.server := h d n hn hlive
          simpa [Command.apply, hne] using hd
    | set c w completes =>
      cases completes with
      | true =>
        refine iff_of_true (fun d n hn hlive => ?_) trivial
        rcases eq_or_ne d c with rfl | hne
        · simp only [record, Function.update_self, Option.some.injEq] at hn
          simp [Command.apply, ← hn]
        · simp only [record, ne_eq, hne, not_false_eq_true, Function.update_of_ne] at hn
          have hd : s.registry d = some n.server := h d n hn hlive
          simpa [Command.apply, hne] using hd
      | false =>
        constructor
        · intro h' n hn hlive
          simpa [Command.apply, eq_comm] using h' c n hn hlive
        · intro hserver d n hn hlive
          rcases eq_or_ne d c with rfl | hne
          · simp [Command.apply, hserver n hn hlive]
          · have hd : s.registry d = some n.server := h d n hn hlive
            simpa [Command.apply, hne] using hd

/-! ### Whole runs -/

/-- **The registry.** In every interleaving of the gateways the registry points to the newest
gateway in every state exactly if, in each step, a `DEL` finds no newest socket that is not over,
and a `SET` whose `connect` raises finds none of another gateway. -/
theorem current_iff (schedule : List (ℕ × Action)) :
    Transition.Always step Current .start schedule ↔
      Transition.Guarded step Spares .start schedule :=
  Transition.always_iff_guarded (K := fun _ => True) (fun _ _ _ _ _ => trivial)
    (fun _ _ _ _ h hs => current_step_iff h hs) trivial (fun c n hn _ => by simp [start] at hn)

/-- A client connects through a gateway, and `connect` is answered. -/
def connects (g : ℕ) (conversation_id : String) : List (ℕ × Action) :=
  [(g, .connect conversation_id), (g, .answer 1 .done), (g, .resume 1), (g, .answer 1 .done),
    (g, .resume 1)]

/-- A client comes back through gateway `2`, and then the endpoint of its old socket on gateway `1`
sees that this socket is gone. -/
def handover : List (ℕ × Action) :=
  connects 1 "conv-1" ++ connects 2 "conv-1" ++
    [(1, .answer 1 .disconnected), (1, .resume 1), (1, .answer 1 .done)]

theorem run_handover : (Transition.run step start handover).map (fun s =>
    (s.newest "conv-1", s.getServerForConnection "conv-1")) = some (some ⟨2, 1, false⟩, none) := by
  decide

/-- The cleanup after the old socket deletes the entry of the new one. -/
theorem not_current : ¬∀ schedule, Transition.Always step Current start schedule := by
  intro h
  obtain ⟨s, hs, heq⟩ := Option.map_eq_some_iff.mp run_handover
  obtain ⟨hnewest, hserver⟩ := Prod.mk.inj heq
  have hcurrent : Current s := (h handover).run hs
  have := hcurrent "conv-1" _ hnewest rfl
  simp [hserver] at this

end Cluster

end Gateway

end TitanChat
