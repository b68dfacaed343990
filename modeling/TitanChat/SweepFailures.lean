import Mathlib.Data.List.Perm.Basic
import TitanChat.ConnectionManager

/-!
# The sweep and failing calls of Redis

`cleanup_stale_connections` is one task with an endless loop. In each round it pings every socket,
evicts the conversations whose ping has failed, sleeps, evicts the conversations that have not been
seen for too long, and sleeps. To evict is to call `disconnect`, which empties the tables, makes two
calls of Redis and closes the socket after them.

Nothing in the loop catches an exception. So the first call of Redis that fails ends the task: the
socket that was taken out of `connections` is never closed, the rest of the list is not evicted, and
there is no other round. As long as the calls succeed, all that a round takes on is finished when
the sweep goes to sleep, whatever the other tasks do meanwhile.

What the sweep takes on and finishes is recorded as jobs: to ping a socket, to evict a conversation,
to close a socket that was taken out of the table. A conversation is evicted when none of the three
tables has an entry for it. A ping or a close is over however it has ended.

## Main definitions

* `Job`, `Sweep`, `Sweep.step`: the run with its record
* `Kept`: the law
* `RedisAnswers`: the guard

## Main results

* `kept_iff`: when the sweep keeps its law
-/

namespace TitanChat

namespace Gateway

/-- What the sweep has to do. -/
inductive Job where
  | ping (conversation_id : String) (w : Socket)
  | evict (conversation_id : String)
  | close (w : Socket)
  deriving DecidableEq

def pings (list : List (String × Socket)) : List Job := list.map fun e => .ping e.1 e.2

def evictions (list : List (String × Option Socket)) : List Job := list.map fun e => .evict e.1

def closes (websocket : Option Socket) : List Job := websocket.toList.map .close

/-- The tables have an entry for the conversation. -/
def State.has (s : State) (conversation_id : String) : Bool :=
  conversation_id ∈ s.connections || conversation_id ∈ s.lastSeen || conversation_id ∈ s.sendLocks

def Pc.isSleeping : Pc → Bool
  | .sleeping _ => true
  | _ => false

/-- The sweep, which is task `0`, goes on. -/
def Action.isSweep : Action → Bool
  | .resume 0 => true
  | _ => false

/-- The gateway, and the jobs of its sweep. -/
structure Sweep where
  state : State
  taken : List Job
  finished : List Job

namespace Sweep

def start : Sweep := ⟨.start, [], []⟩

/-- The sockets that the beginning of `disconnect` takes out of `connections`. -/
def opened : State × Then → List Job
  | (s, .disconnect c _ _) => closes (s.connections.lookup c)
  | (_, .await _) => []

/-- The conversation that the beginning of `disconnect` has evicted in the state `s'`. -/
def evicted (s' : State) : Then → List Job
  | .disconnect c _ _ => if s'.has c then [] else [.evict c]
  | .await _ => []

/-- The jobs that the sweep takes on when it goes on with a reply. -/
def takes (s : State) (pc : Pc) (r : Reply) : List Job :=
  (match pc, r with
    | .sleeping .ping, _ => pings (items s.connections)
    | .sleeping .evict, _ => s.getStaleConnections.map .evict
    | .pinging .., .done => []
    | .pinging c .., _ => [.evict c]
    | _, _ => []) ++ opened (proceed s pc r)

/-- The jobs that it finishes, where `s'` is the state at its next await. -/
def finishes (s : State) (pc : Pc) (r : Reply) (s' : State) : List Job :=
  (match pc with
    | .pinging c w _ _ => [.ping c w]
    | .closing d => closes d.websocket
    | _ => []) ++ evicted s' (proceed s pc r).2

/-- The await of the sweep. -/
def pc (k : Sweep) : Pc := (k.state.tasks 0).pc

def step (k : Sweep) (a : Action) : Option Sweep :=
  (Gateway.step k.state a).map fun s =>
    match a.isSweep, k.state.wakes 0 with
    | true, some r =>
      ⟨s, k.taken ++ takes k.state k.pc r, k.finished ++ finishes k.state k.pc r s⟩
    | _, _ => { k with state := s }

/-- The steps that do not take the sweep to its sleep. -/
def awakeStep (k : Sweep) (a : Action) : Option Sweep :=
  (k.step a).filter fun k' => !k'.pc.isSleeping

/-- The law. The sweep is alive, and whenever it sleeps, it has finished what it took on. A round
that has begun ends: the sweep takes so many steps at most before it sleeps again. -/
structure Kept (k : Sweep) : Prop where
  alive : k.pc ≠ .finished
  settled : k.pc.isSleeping = true → k.taken.Perm k.finished
  ends : k.pc.isSleeping = false → ∃ n, ∀ as k',
    Transition.run awakeStep k as = some k' → as.countP Action.isSweep ≤ n

/-- A call of Redis that `disconnect` makes has succeeded. -/
def succeeds : Pc → Reply → Bool
  | .unregistering _, .done | .reading _, .found _ | .offlining .., .done => true
  | .unregistering _, _ | .reading _, _ | .offlining .., _ => false
  | _, _ => true

/-- When the sweep goes on, no call of Redis has failed. -/
def RedisAnswers (k : Sweep) (a : Action) : Prop :=
  a.isSweep = true → (k.state.wakes 0).all (succeeds k.pc) = true

instance (k : Sweep) (a : Action) : Decidable (RedisAnswers k a) :=
  inferInstanceAs (Decidable (_ → _))

/-! ### What a round has left to do -/

/-- The evictions that follow a call of `disconnect` by the sweep. -/
def following : After → Option (List (String × Option Socket))
  | .sweep rest _ => some rest
  | _ => none

/-- The jobs that are left, at an await of the sweep. -/
def owed : Pc → Option (List Job)
  | .sleeping _ => some []
  | .pinging c w rest stale => some (pings ((c, w) :: rest) ++ evictions stale)
  | .unregistering d | .reading d | .offlining d _ | .closing d =>
    (following d.after).map fun rest => closes d.websocket ++ evictions rest
  | _ => none

section Awaits

theorem not_has_disconnect (s : State) (t : ℕ) (c : String) (cause : Option Socket)
    (after : After) : (s.disconnect t c cause after).has c = false := by
  simp [State.has, State.disconnect, State.goto, State.forget]

/-- The loop over a list of conversations goes on. -/
theorem evict_balanced (s : State) (list : List (String × Option Socket)) (next : Round) :
    ∃ jobs, owed ((s.perform 0 (evict list next)).tasks 0).pc = some jobs ∧
      (opened (s, evict list next) ++ evictions list).Perm
        (evicted (s.perform 0 (evict list next)) (evict list next) ++ jobs) := by
  cases list with
  | nil =>
    refine ⟨[], ?_, List.Perm.refl _⟩
    simp [evict, State.perform, State.goto, owed]
  | cons e rest =>
    obtain ⟨c, cause⟩ := e
    refine ⟨closes (s.connections.lookup c) ++ evictions rest, ?_, ?_⟩
    · simp [evict, State.perform, State.disconnect, State.goto, owed, following]
    · simp only [evict, State.perform, evicted, not_has_disconnect, opened, evictions,
        List.map_cons]
      exact List.perm_middle

/-- The loop over the sockets goes on. -/
theorem ping_balanced (s : State) (list : List (String × Socket))
    (stale : List (String × Option Socket)) :
    ∃ jobs, owed ((s.perform 0 (ping list stale)).tasks 0).pc = some jobs ∧
      (opened (s, ping list stale) ++ (pings list ++ evictions stale)).Perm
        (evicted (s.perform 0 (ping list stale)) (ping list stale) ++ jobs) := by
  cases list with
  | nil => exact evict_balanced s stale .evict
  | cons e rest =>
    refine ⟨pings (e :: rest) ++ evictions stale, ?_, List.Perm.refl _⟩
    simp [ping, State.perform, State.goto, owed]

/-- The list after a cleanup goes on. -/
theorem returns_balanced (s : State) {after : After} {rest : List (String × Option Socket)}
    (h : following after = some rest) :
    ∃ jobs, owed (((s.returns after false).1.perform 0 (s.returns after false).2).tasks 0).pc =
        some jobs ∧
      (opened (s.returns after false) ++ evictions rest).Perm
        (evicted ((s.returns after false).1.perform 0 (s.returns after false).2)
          (s.returns after false).2 ++ jobs) := by
  cases after with
  | sweep rest' next =>
    obtain rfl := Option.some.inj h
    exact evict_balanced s rest' next
  | _ => cases h

/-- An exception in a cleanup ends the sweep. -/
theorem returns_raised (s : State) {after : After} {rest : List (String × Option Socket)}
    (h : following after = some rest) :
    ((s.returns after true).1.perform 0 (s.returns after true).2).tasks 0 = ⟨.finished, none⟩ := by
  cases after with
  | sweep rest' next => simp [State.returns, State.perform, State.goto]
  | _ => cases h

/-- A cleanup ends with the socket that it has taken out of the table. -/
theorem finish_balanced (s : State) {d : Cleanup} {rest : List (String × Option Socket)}
    (h : following d.after = some rest) :
    ∃ jobs, owed (((s.finish d).1.perform 0 (s.finish d).2).tasks 0).pc = some jobs ∧
      (opened (s.finish d) ++ (closes d.websocket ++ evictions rest)).Perm
        (evicted ((s.finish d).1.perform 0 (s.finish d).2) (s.finish d).2 ++ jobs) := by
  cases hd : d.websocket with
  | some x =>
    refine ⟨closes (some x) ++ evictions rest, ?_, ?_⟩
    · simp [State.finish, hd, State.perform, State.goto, owed, h]
    · simp [State.finish, hd, opened, evicted]
  | none =>
    simp only [State.finish, hd]
    exact returns_balanced s h

/-- What the sweep has taken on and not finished is left to do at its next await. -/
def Balances (s : State) (pc : Pc) (r : Reply) (jobs : List Job) : Prop :=
  let s' := (proceed s pc r).1.perform 0 (proceed s pc r).2
  ∃ jobs', owed (s'.tasks 0).pc = some jobs' ∧
    (takes s pc r ++ jobs).Perm (finishes s pc r s' ++ jobs')

/-- A round begins. -/
theorem sleeping_balances (s : State) (next : Round) (r : Reply) :
    Balances s (.sleeping next) r [] := by
  cases next with
  | ping =>
    obtain ⟨jobs', howed, hperm⟩ := ping_balanced s (items s.connections) []
    refine ⟨jobs', howed, List.perm_iff_count.mpr fun j => ?_⟩
    have hcount := hperm.count_eq j
    simp only [takes, finishes, proceed, List.count_append, evictions, List.map_nil,
      List.count_nil] at hcount ⊢
    omega
  | evict =>
    have hstale : evictions s.verdicts = s.getStaleConnections.map .evict := by
      simp [evictions, State.verdicts, Function.comp_def]
    obtain ⟨jobs', howed, hperm⟩ := evict_balanced (s.note ((s.verdicts.filterMap Prod.snd).map
      (.event .timedOut))) s.verdicts .ping
    refine ⟨jobs', howed, List.perm_iff_count.mpr fun j => ?_⟩
    have hcount := hperm.count_eq j
    simp only [takes, finishes, proceed, List.count_append, hstale, List.count_nil] at hcount ⊢
    omega

/-- A ping is over; if it has failed, there is one more conversation to evict. -/
theorem pinging_balances (s : State) (c : String) (w : Socket) (rest : List (String × Socket))
    (stale : List (String × Option Socket)) (r : Reply) :
    Balances s (.pinging c w rest stale) r (pings ((c, w) :: rest) ++ evictions stale) := by
  have hpings : pings ((c, w) :: rest) = .ping c w :: pings rest := rfl
  cases r with
  | done =>
    obtain ⟨jobs', howed, hperm⟩ := ping_balanced s rest stale
    refine ⟨jobs', howed, List.perm_iff_count.mpr fun j => ?_⟩
    have hcount := hperm.count_eq j
    simp only [takes, finishes, proceed, List.count_append, hpings, List.count_nil,
      List.count_cons] at hcount ⊢
    omega
  | _ =>
    obtain ⟨jobs', howed, hperm⟩ := ping_balanced (s.note [.event .sendFailed w]) rest
      (stale ++ [(c, some w)])
    have hstale : evictions (stale ++ [(c, some w)]) = evictions stale ++ [.evict c] := by
      simp [evictions]
    refine ⟨jobs', howed, List.perm_iff_count.mpr fun j => ?_⟩
    have hcount := hperm.count_eq j
    simp only [takes, finishes, proceed, List.count_append, hpings, hstale, List.count_nil,
      List.count_cons] at hcount ⊢
    omega

/-- A cleanup has read what Redis has of the conversation. -/
theorem reading_balances (s : State) {d : Cleanup} {rest : List (String × Option Socket)}
    (h : following d.after = some rest) (meta_ : Dict String) :
    Balances s (.reading d) (.found meta_) (closes d.websocket ++ evictions rest) := by
  by_cases hmeta : meta_.entries.isEmpty
  · have hproceed : proceed s (.reading d) (.found meta_) = s.finish d := if_pos hmeta
    simp only [Balances, takes, finishes, hproceed]
    exact finish_balanced s h
  · have hproceed : proceed s (.reading d) (.found meta_) = (s, .await (.offlining d meta_)) :=
      if_neg hmeta
    simp only [Balances, takes, finishes, hproceed]
    refine ⟨closes d.websocket ++ evictions rest, ?_, List.Perm.refl _⟩
    simp [State.perform, State.goto, owed, h]

/-- A socket has been closed. -/
theorem closing_balances (s : State) {d : Cleanup} {rest : List (String × Option Socket)}
    (h : following d.after = some rest) (r : Reply) :
    Balances s (.closing d) r (closes d.websocket ++ evictions rest) := by
  obtain ⟨jobs', howed, hperm⟩ := returns_balanced s h
  refine ⟨jobs', howed, List.perm_iff_count.mpr fun j => ?_⟩
  have hcount := hperm.count_eq j
  simp only [takes, finishes, proceed, List.count_append, List.count_nil] at hcount ⊢
  omega

/-- **One step of the sweep.** If the calls of Redis succeed, what it has taken on and not finished
is left to do at its next await; if not, there is no next await. -/
theorem resume_balanced (s : State) {pc : Pc} {jobs : List Job} (ho : owed pc = some jobs)
    (r : Reply) :
    succeeds pc r = true ∧ Balances s pc r jobs ∨ succeeds pc r = false ∧
      ((proceed s pc r).1.perform 0 (proceed s pc r).2).tasks 0 = ⟨.finished, none⟩ := by
  cases pc with
  | sleeping next =>
    obtain rfl := Option.some.inj ho
    exact Or.inl ⟨rfl, sleeping_balances s next r⟩
  | pinging c w rest stale =>
    obtain rfl := Option.some.inj ho
    exact Or.inl ⟨rfl, pinging_balances s c w rest stale r⟩
  | unregistering d =>
    obtain ⟨rest, hrest, -⟩ := Option.map_eq_some_iff.mp ho
    cases r with
    | done =>
      refine Or.inl ⟨rfl, jobs, ?_, List.Perm.refl _⟩
      simpa [proceed, State.perform, State.goto, owed] using ho
    | _ => exact Or.inr ⟨rfl, returns_raised s hrest⟩
  | reading d =>
    obtain ⟨rest, hrest, rfl⟩ := Option.map_eq_some_iff.mp ho
    cases r with
    | found meta_ => exact Or.inl ⟨rfl, reading_balances s hrest meta_⟩
    | _ => exact Or.inr ⟨rfl, returns_raised s hrest⟩
  | offlining d meta_ =>
    obtain ⟨rest, hrest, rfl⟩ := Option.map_eq_some_iff.mp ho
    cases r with
    | done => exact Or.inl ⟨rfl, finish_balanced s hrest⟩
    | _ => exact Or.inr ⟨rfl, returns_raised s hrest⟩
  | closing d =>
    obtain ⟨rest, hrest, rfl⟩ := Option.map_eq_some_iff.mp ho
    exact Or.inl ⟨rfl, closing_balances s hrest r⟩
  | _ => cases ho

/-! ### Rounds end -/

/-- A bound on the steps of the sweep before it sleeps. -/
def rank : Pc → ℕ
  | .pinging _ _ rest stale => 7 * (rest.length + 1) + 5 * stale.length
  | .unregistering d => 4 + 5 * ((following d.after).getD []).length
  | .reading d => 3 + 5 * ((following d.after).getD []).length
  | .offlining d _ => 2 + 5 * ((following d.after).getD []).length
  | .closing d => 1 + 5 * ((following d.after).getD []).length
  | _ => 0

theorem rank_evict (s : State) (list : List (String × Option Socket)) (next : Round) :
    ((s.perform 0 (evict list next)).tasks 0).pc.isSleeping = true ∨
      rank ((s.perform 0 (evict list next)).tasks 0).pc < 5 * list.length := by
  cases list with
  | nil => exact Or.inl (by simp [evict, State.perform, State.goto, Pc.isSleeping])
  | cons e rest =>
    refine Or.inr ?_
    simp only [evict, State.perform, State.disconnect, State.goto, Function.update_self, rank,
      following, Option.getD_some, List.length_cons]
    omega

theorem rank_ping (s : State) (list : List (String × Socket))
    (stale : List (String × Option Socket)) :
    ((s.perform 0 (ping list stale)).tasks 0).pc.isSleeping = true ∨
      rank ((s.perform 0 (ping list stale)).tasks 0).pc ≤ 7 * list.length + 5 * stale.length := by
  cases list with
  | nil =>
    have hping : ping [] stale = evict stale .evict := rfl
    rw [hping]
    exact (rank_evict s stale .evict).imp id fun h => Nat.le_add_left_of_le (Nat.le_of_lt h)
  | cons e rest =>
    refine Or.inr ?_
    simp [ping, State.perform, State.goto, rank]

theorem rank_returns (s : State) {after : After} {rest : List (String × Option Socket)}
    (h : following after = some rest) (raised : Bool) :
    (((s.returns after raised).1.perform 0 (s.returns after raised).2).tasks 0).pc.isSleeping =
        true ∨
      rank (((s.returns after raised).1.perform 0 (s.returns after raised).2).tasks 0).pc <
        1 + 5 * rest.length := by
  cases raised with
  | true =>
    rw [returns_raised s h]
    exact Or.inr (Nat.add_pos_left Nat.one_pos _)
  | false =>
    cases after with
    | sweep rest' next =>
      obtain rfl := Option.some.inj h
      exact (rank_evict s rest' next).imp id fun h => Nat.lt_add_left 1 h
    | _ => cases h

theorem rank_finish (s : State) {d : Cleanup} {rest : List (String × Option Socket)}
    (h : following d.after = some rest) :
    (((s.finish d).1.perform 0 (s.finish d).2).tasks 0).pc.isSleeping = true ∨
      rank (((s.finish d).1.perform 0 (s.finish d).2).tasks 0).pc < 2 + 5 * rest.length := by
  cases hd : d.websocket with
  | some x =>
    refine Or.inr ?_
    simp only [State.finish, hd, State.perform, State.goto, Function.update_self, rank, h,
      Option.getD_some]
    omega
  | none =>
    simp only [State.finish, hd]
    exact (rank_returns s h false).imp id fun h => by omega

/-- **The sweep gets on.** Unless it is asleep, each of its steps takes it to its sleep or lowers
the rank. -/
theorem rank_resume (s : State) {pc : Pc} {jobs : List Job} (ho : owed pc = some jobs)
    (hawake : pc.isSleeping = false) (r : Reply) :
    let s' := (proceed s pc r).1.perform 0 (proceed s pc r).2
    (s'.tasks 0).pc.isSleeping = true ∨ rank (s'.tasks 0).pc < rank pc := by
  intro s'
  cases pc with
  | sleeping next => cases hawake
  | pinging c w rest stale =>
    cases r with
    | done =>
      refine (rank_ping s rest stale).imp id fun h => ?_
      simp only [s', rank]
      exact Nat.lt_of_le_of_lt h (by omega)
    | _ =>
      refine (rank_ping (s.note [.event .sendFailed w]) rest (stale ++ [(c, some w)])).imp id
        fun h => ?_
      simp only [s', rank]
      refine Nat.lt_of_le_of_lt h ?_
      simp only [List.length_append, List.length_singleton]
      omega
  | unregistering d =>
    obtain ⟨rest, hrest, -⟩ := Option.map_eq_some_iff.mp ho
    simp only [rank, hrest, Option.getD_some]
    cases r with
    | done =>
      refine Or.inr ?_
      simp [s', proceed, State.perform, State.goto, hrest]
    | _ => exact (rank_returns s hrest true).imp id fun h => Nat.lt_trans h (by omega)
  | reading d =>
    obtain ⟨rest, hrest, -⟩ := Option.map_eq_some_iff.mp ho
    simp only [rank, hrest, Option.getD_some]
    cases r with
    | found meta_ =>
      by_cases hmeta : meta_.entries.isEmpty
      · have hproceed : proceed s (.reading d) (.found meta_) = s.finish d := if_pos hmeta
        simp only [s', hproceed]
        exact (rank_finish s hrest).imp id fun h => Nat.lt_trans h (by omega)
      · have hproceed : proceed s (.reading d) (.found meta_) = (s, .await (.offlining d meta_)) :=
          if_neg hmeta
        refine Or.inr ?_
        simp [s', hproceed, State.perform, State.goto, hrest]
    | _ => exact (rank_returns s hrest true).imp id fun h => Nat.lt_trans h (by omega)
  | offlining d meta_ =>
    obtain ⟨rest, hrest, -⟩ := Option.map_eq_some_iff.mp ho
    simp only [rank, hrest, Option.getD_some]
    cases r with
    | done => exact rank_finish s hrest
    | _ => exact (rank_returns s hrest true).imp id fun h => Nat.lt_trans h (by omega)
  | closing d =>
    obtain ⟨rest, hrest, -⟩ := Option.map_eq_some_iff.mp ho
    simp only [rank, hrest, Option.getD_some]
    exact rank_returns s hrest false
  | _ => cases ho

end Awaits

/-! ### Steps and runs -/

/-- What every run preserves: what the sweep has taken on is finished or left to do, as long as it
is alive. -/
structure Balanced (k : Sweep) : Prop where
  created : 0 < k.state.created
  balanced : k.state.tasks 0 = ⟨.finished, none⟩ ∨
    ∃ jobs, owed k.pc = some jobs ∧ k.taken.Perm (k.finished ++ jobs)

section Steps

variable {k k' : Sweep} {a : Action}

theorem isSweep_eq_true : a.isSweep = true ↔ a = .resume 0 := by
  cases a with
  | resume t => cases t <;> simp [Action.isSweep]
  | _ => simp [Action.isSweep]

/-- The other steps leave the sweep where it is. -/
theorem step_other (h : k.step a = some k') (ha : a.isSweep = false) :
    Gateway.step k.state a = some k'.state ∧ k'.taken = k.taken ∧ k'.finished = k.finished := by
  obtain ⟨s, hs, rfl⟩ := Option.map_eq_some_iff.mp h
  rw [ha]
  exact ⟨hs, rfl, rfl⟩

theorem ne_resume_of_isSweep (ha : a.isSweep = false) : a ≠ .resume 0 := fun heq =>
  Bool.false_ne_true (ha.symm.trans (isSweep_eq_true.mpr heq))

theorem pc_step_other (hk : 0 < k.state.created) (h : k.step a = some k')
    (ha : a.isSweep = false) : k'.pc = k.pc :=
  pc_step_of_ne hk (ne_resume_of_isSweep ha) (step_other h ha).1

/-- A step of the sweep. -/
theorem step_own (h : k.step (.resume 0) = some k') : ∃ r, k.state.wakes 0 = some r ∧
    k' = ⟨(proceed k.state k.pc r).1.perform 0 (proceed k.state k.pc r).2,
      k.taken ++ takes k.state k.pc r, k.finished ++ finishes k.state k.pc r
        ((proceed k.state k.pc r).1.perform 0 (proceed k.state k.pc r).2)⟩ := by
  obtain ⟨s, hs, rfl⟩ := Option.map_eq_some_iff.mp h
  obtain ⟨r, hr, rfl⟩ := Option.map_eq_some_iff.mp hs
  refine ⟨r, hr, ?_⟩
  simp only [hr, Action.isSweep]
  rfl

theorem created_le (h : k.step a = some k') : k.state.created ≤ k'.state.created := by
  obtain ⟨s, hs, rfl⟩ := Option.map_eq_some_iff.mp h
  have hle := created_le_of_step hs
  split <;> exact hle

/-- A sweep that has ended does not go on. -/
theorem not_step_of_finished (h : k.state.tasks 0 = ⟨.finished, none⟩) :
    k.step (.resume 0) = none := by
  rw [Sweep.step, Gateway.step, State.wakes, h]
  rfl

theorem Balanced.step (hk : Balanced k) (h : k.step a = some k') : Balanced k' := by
  refine ⟨Nat.lt_of_lt_of_le hk.created (created_le h), ?_⟩
  cases ha : a.isSweep with
  | true =>
    obtain rfl := isSweep_eq_true.mp ha
    obtain hended | ⟨jobs, howed, hperm⟩ := hk.balanced
    · exact absurd ((not_step_of_finished hended).symm.trans h).symm (Option.some_ne_none k')
    obtain ⟨r, -, rfl⟩ := step_own h
    obtain ⟨-, jobs', howed', hperm'⟩ | ⟨-, hended⟩ := resume_balanced k.state howed r
    · refine Or.inr ⟨jobs', howed', List.perm_iff_count.mpr fun j => ?_⟩
      have hcount := hperm.count_eq j
      have hcount' := hperm'.count_eq j
      simp only [List.count_append] at hcount hcount' ⊢
      omega
    · exact Or.inl hended
  | false =>
    obtain ⟨hs, htaken, hfinished⟩ := step_other h ha
    obtain hended | ⟨jobs, howed, hperm⟩ := hk.balanced
    · obtain hsame | ⟨⟨r, hr⟩, -⟩ := task_step_of_ne hk.created (ne_resume_of_isSweep ha) hs
      · exact Or.inl (hsame.trans hended)
      · rw [hended] at hr
        cases hr
    · refine Or.inr ⟨jobs, ?_, ?_⟩
      · rw [pc_step_other hk.created h ha]
        exact howed
      · rw [htaken, hfinished]
        exact hperm

theorem Balanced.alive_iff (hk : Balanced k) :
    k.pc ≠ .finished ↔ ∃ jobs, owed k.pc = some jobs := by
  constructor
  · intro halive
    obtain hended | ⟨jobs, howed, -⟩ := hk.balanced
    · exact absurd (congrArg Task.pc hended) halive
    · exact ⟨jobs, howed⟩
  · rintro ⟨jobs, howed⟩ hended
    rw [hended] at howed
    cases howed

/-- **One step** ends the sweep exactly if a call of Redis has failed. -/
theorem Balanced.alive_step (hk : Balanced k) (halive : k.pc ≠ .finished)
    (h : k.step a = some k') : k'.pc ≠ .finished ↔ RedisAnswers k a := by
  cases ha : a.isSweep with
  | true =>
    obtain rfl := isSweep_eq_true.mp ha
    obtain ⟨jobs, howed⟩ := hk.alive_iff.mp halive
    obtain ⟨r, hr, rfl⟩ := step_own h
    have hanswers : RedisAnswers k (.resume 0) ↔ succeeds k.pc r = true := by
      simp [RedisAnswers, hr, Action.isSweep]
    rw [hanswers]
    obtain ⟨hr', jobs', howed', -⟩ | ⟨hr', hended⟩ := resume_balanced k.state howed r
    · exact iff_of_true ((hk.step h).alive_iff.mpr ⟨jobs', howed'⟩) hr'
    · rw [hr']
      exact iff_of_false (fun hne => hne (congrArg Task.pc hended)) Bool.false_ne_true
  | false =>
    rw [pc_step_other hk.created h ha]
    exact iff_of_true halive fun htrue => by simp [ha] at htrue

/-- A step within a round lowers the rank if it is one of the sweep. -/
theorem Balanced.rank_step (hk : Balanced k) (hawake : k.pc.isSleeping = false)
    (h : k.awakeStep a = some k') :
    rank k'.pc + 1 ≤ rank k.pc + if !a.isSweep then 1 else 0 := by
  obtain ⟨h, hawake'⟩ := Option.filter_eq_some_iff.mp h
  rw [Bool.not_eq_true'] at hawake'
  cases ha : a.isSweep with
  | true =>
    obtain rfl := isSweep_eq_true.mp ha
    obtain hended | ⟨jobs, howed, -⟩ := hk.balanced
    · exact absurd ((not_step_of_finished hended).symm.trans h).symm (Option.some_ne_none k')
    obtain ⟨r, -, rfl⟩ := step_own h
    obtain hasleep | hlt := rank_resume k.state howed hawake r
    · exact absurd (hawake'.symm.trans hasleep) Bool.false_ne_true
    · exact hlt
  | false =>
    rw [pc_step_other hk.created h ha]
    exact Nat.le_refl _

/-- A round that has begun ends. -/
theorem Balanced.ends (hk : Balanced k) (hawake : k.pc.isSleeping = false) :
    ∃ n, ∀ as k', Transition.run awakeStep k as = some k' → as.countP Action.isSweep ≤ n := by
  refine ⟨rank k.pc, fun as k' hrun => ?_⟩
  have hkeep : ∀ (k : Sweep) a k', Balanced k ∧ k.pc.isSleeping = false →
      k.awakeStep a = some k' → Balanced k' ∧ k'.pc.isSleeping = false := by
    intro k a k' hk h
    obtain ⟨h, hawake'⟩ := Option.filter_eq_some_iff.mp h
    exact ⟨hk.1.step h, (Bool.not_eq_true' _).mp hawake'⟩
  have hlength : as.length + rank k'.pc ≤
      rank k.pc + 1 * as.countP fun a => !a.isSweep :=
    Transition.length_add_rank_le hkeep (fun k a k' hk h => hk.1.rank_step hk.2 h) ⟨hk, hawake⟩ hrun
  have hsplit : as.length = as.countP Action.isSweep + as.countP fun a => !a.isSweep := by
    simpa using List.length_eq_countP_add_countP Action.isSweep
  omega

/-- What is balanced keeps the law while it is alive. -/
theorem Balanced.kept (hk : Balanced k) (halive : k.pc ≠ .finished) : Kept k where
  alive := halive
  settled hasleep := by
    obtain hended | ⟨jobs, howed, hperm⟩ := hk.balanced
    · exact absurd (congrArg Task.pc hended) halive
    · cases hpc : k.pc with
      | sleeping next =>
        rw [hpc] at howed
        obtain rfl := Option.some.inj howed
        rwa [List.append_nil] at hperm
      | _ =>
        rw [hpc] at hasleep
        cases hasleep
  ends := hk.ends

theorem balanced_start : Balanced start where
  created := Nat.one_pos
  balanced := Or.inr ⟨[], rfl, List.Perm.refl _⟩

/-- **The sweep and failing calls, exactly.** In every interleaving with the other tasks, the sweep
keeps its law throughout if and only if it never goes on from a call of Redis that has failed. -/
theorem kept_iff (as : List Action) :
    Transition.Always step Kept start as ↔ Transition.Guarded step RedisAnswers start as := by
  refine Transition.always_iff_guarded (fun _ _ _ hk h => Balanced.step hk h) ?_ balanced_start
    (balanced_start.kept Pc.noConfusion)
  intro k a k' hk hkept h
  rw [← hk.alive_step hkept.alive h]
  exact ⟨fun h' => h'.alive, fun halive => (hk.step h).kept halive⟩

end Steps

/-- Two conversations that nobody has seen for more than two minutes, and a call of Redis that
raises when the first of them is evicted. -/
def evictionFails : List Action :=
  [.connect "conv-1", .answer 1 .done, .resume 1, .answer 1 .done, .resume 1,
    .connect "conv-2", .answer 2 .done, .resume 2, .answer 2 .done, .resume 2,
    .answer 0 .done, .resume 0, .answer 0 .done, .resume 0, .answer 0 .done, .resume 0,
    .clock 200000000, .answer 0 .done, .resume 0, .answer 0 .raised, .resume 0]

/-- The sweep is gone. The socket that it took out of `connections` is not closed, and the other
conversation is not evicted. -/
theorem end_evictionFails : (Transition.run step start evictionFails).map (fun k =>
    (owed k.pc, k.taken, k.finished)) = some (none,
      [.ping "conv-1" 1, .ping "conv-2" 2, .evict "conv-1", .evict "conv-2", .close 1],
      [.ping "conv-1" 1, .ping "conv-2" 2, .evict "conv-1"]) := by
  decide +kernel

theorem not_kept : ¬∀ as, Transition.Always step Kept start as := by
  intro h
  obtain ⟨k, hrun, hk⟩ := Option.map_eq_some_iff.mp end_evictionFails
  have hbalanced : Balanced k :=
    (Transition.always_of_invariant (fun _ _ _ hk h => hk.step h) balanced_start evictionFails).run
      hrun
  obtain ⟨jobs, howed⟩ := hbalanced.alive_iff.mp ((h evictionFails).run hrun).alive
  have hnone : owed k.pc = none := congrArg Prod.fst hk
  exact Option.some_ne_none jobs (howed.symm.trans hnone)

end Sweep

end Gateway

end TitanChat
