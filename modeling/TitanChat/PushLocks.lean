import TitanChat.ConnectionManager
import TitanChat.Internal.Mutex

/-!
# The lock of a socket

`connect` gives each socket a lock, and `send_message` sends while it holds the lock of its socket.
It holds it longer than that: when the `send_json` fails, the whole of `disconnect` runs inside the
`async with`, after the lock has left `send_locks`. Those who were waiting for it then still get it,
and send to a socket that has been closed.

Sockets come and go and a conversation changes its socket while pushes wait. So that a push never
takes the lock of one socket to send to another rests on `connect` storing the two together, and on
the two lookups of `send_message` with no await between them. A socket is stored once, with a lock
that is new; from then on the two belong together, in the maps and in every push.

The lock is between pushes. The pings of the sweep and the replies of the endpoint do not take it.

## Main definitions

* `Pc.push`, `Pc.holds`: the socket and the lock of a push, and the lock that it holds
* `State.Assigned`: a socket and its lock
* `Locks`: the invariant
* `Task.work`: how far a push with a lock is from its end

## Main results

* `eq_of_sending`: one push at a time sends to a socket
* `returned_of_run`: a push gives its lock back
* `exists_run_sent`: whoever waits can still send
-/

namespace TitanChat

namespace Gateway

/-- The lock that `disconnect` is called under. -/
def After.lock : After → Option ℕ
  | .release lock => some lock
  | _ => none

/-- The socket that a push is for, and its lock. -/
def Pc.push : Pc → Option (Socket × ℕ)
  | .locking _ w lock | .sending _ w lock => some (w, lock)
  | _ => none

/-- The lock that a task holds. -/
def Pc.holds : Pc → Option ℕ
  | .sending _ _ lock => some lock
  | .unregistering d | .reading d | .offlining d _ | .closing d => d.after.lock
  | _ => none

/-- The socket that a task is going to store. -/
def Pc.opens : Pc → Option Socket
  | .superseding _ w _ | .accepting _ w => some w
  | _ => none

/-- The lock that each task holds. -/
def State.holds (s : State) (t : ℕ) : Option ℕ := (s.tasks t).pc.holds

/-- A socket and the lock that goes with it, in the maps or in a push. -/
inductive State.Assigned (s : State) (w : Socket) (lock : ℕ) : Prop
  | stored {c : String} (connections : s.connections.lookup c = some w)
      (sendLocks : s.sendLocks.lookup c = some lock)
  | pushing {t : ℕ} (push : (s.tasks t).pc.push = some (w, lock))

/-- **The invariant.** -/
structure Locks (s : State) : Prop where
  mutex : Mutex s.holds s.locked
  idle : ∀ t, s.created ≤ t → s.tasks t = ⟨.finished, none⟩
  /-- A task opens its own socket. -/
  opens : ∀ t w, (s.tasks t).pc.opens = some w → t = w
  /-- A socket with a lock has been stored. -/
  known : ∀ w lock, s.Assigned w lock →
    lock < s.locks ∧ w < s.created ∧ (s.tasks w).pc.opens = none
  pairs : ∀ w lock w' lock', s.Assigned w lock → s.Assigned w' lock' → (w = w' ↔ lock = lock')

/-! ### From one await to the next -/

section Proceed

variable {s s' : State}

/-- What a task does between two awaits to what the locks depend on. -/
structure Handles (s : State) (pc : Pc) (p : State × Then) : Prop where
  turn : Mutex.Turn s.locked pc.holds (p.2.task p.1).pc.holds p.1.locked
  push : ∀ e, (p.2.task p.1).pc.push = some e → pc.push = some e
  opens : ∀ w, (p.2.task p.1).pc.opens = some w → pc.opens = some w
  maps : p.1.connections = s.connections ∧ p.1.sendLocks = s.sendLocks ∧ p.1.locks = s.locks ∨
    ∃ c w, pc = .accepting c w ∧ p = (s.store c w, .await (.registering c w))

/-- A task that goes on with what it holds. -/
theorem Handles.keep {pc : Pc} {p : State × Then} (hholds : (p.2.task p.1).pc.holds = pc.holds)
    (hpush : (p.2.task p.1).pc.push = none) (hopens : (p.2.task p.1).pc.opens = none)
    (hlocked : p.1.locked = s.locked)
    (hmaps : p.1.connections = s.connections ∧ p.1.sendLocks = s.sendLocks ∧
      p.1.locks = s.locks) : Handles s pc p where
  turn := by
    rw [hholds, hlocked]
    exact .keep _
  push e he := by rw [hpush] at he; cases he
  opens w hw := by rw [hopens] at hw; cases hw
  maps := Or.inl hmaps

/-- The sweep holds no lock. -/
theorem handles_evict {pc : Pc} (hpc : pc.holds = none) (list : List (String × Option Socket))
    (next : Round) (hlocked : s'.locked = s.locked)
    (hmaps : s'.connections = s.connections ∧ s'.sendLocks = s.sendLocks ∧ s'.locks = s.locks) :
    Handles s pc (s', evict list next) := by
  cases list with
  | nil | cons => exact .keep hpc.symm rfl rfl hlocked hmaps

theorem handles_ping {pc : Pc} (hpc : pc.holds = none) (list : List (String × Socket))
    (stale : List (String × Option Socket)) (hlocked : s'.locked = s.locked)
    (hmaps : s'.connections = s.connections ∧ s'.sendLocks = s.sendLocks ∧ s'.locks = s.locks) :
    Handles s pc (s', ping list stale) := by
  cases list with
  | nil => exact handles_evict hpc stale .evict hlocked hmaps
  | cons => exact .keep hpc.symm rfl rfl hlocked hmaps

/-- Nor does the endpoint. -/
theorem handles_leave {pc : Pc} (hpc : pc.holds = none) (c : String) (w : Socket) (r : Reply) :
    Handles s pc (s.leave c w r) := by
  cases r with
  | _ => exact .keep hpc.symm rfl rfl rfl ⟨rfl, rfl, rfl⟩

/-- `disconnect` returns: a push gives its lock back. -/
theorem handles_returns {pc : Pc} {after : After} (hpc : pc.holds = after.lock) (raised : Bool) :
    Handles s pc (s.returns after raised) := by
  cases after with
  | inFinally c w | done => exact .keep hpc.symm rfl rfl rfl ⟨rfl, rfl, rfl⟩
  | release lock =>
    refine ⟨?_, fun e he => ?_, fun w hw => ?_, Or.inl ⟨rfl, rfl, rfl⟩⟩
    · rw [hpc]
      exact .release lock
    · cases he
    · cases hw
  | sweep rest next =>
    cases raised with
    | true => exact .keep hpc.symm rfl rfl rfl ⟨rfl, rfl, rfl⟩
    | false => exact handles_evict hpc rest next rfl ⟨rfl, rfl, rfl⟩

theorem handles_finish {pc : Pc} {d : Cleanup} (hpc : pc.holds = d.after.lock) :
    Handles s pc (s.finish d) := by
  rw [State.finish]
  split
  · exact .keep hpc.symm rfl rfl rfl ⟨rfl, rfl, rfl⟩
  · exact handles_returns hpc false

/-- **From one await to the next.** Whoever waits for a lock goes on when it is free. -/
theorem handles_proceed {pc : Pc} (r : Reply)
    (hfree : ∀ c w lock, pc = .locking c w lock → s.locked lock = false) :
    Handles s pc (proceed s pc r) := by
  fun_cases proceed s pc r
  case case1 c w old => exact ⟨.keep none, fun _ he => he, fun _ hw => hw, Or.inl ⟨rfl, rfl, rfl⟩⟩
  case case2 c w =>
    -- the socket is stored
    refine ⟨.keep none, fun _ he => he, fun _ hw => ?_, Or.inr ⟨c, w, rfl, rfl⟩⟩
    exact absurd hw.symm (Option.some_ne_none _)
  case case15 c w lock =>
    -- `send_json` has returned
    refine ⟨.release lock, fun _ he => ?_, fun _ hw => hw, Or.inl ⟨rfl, rfl, rfl⟩⟩
    exact absurd he.symm (Option.some_ne_none _)
  case case29 c w lock =>
    exact ⟨.acquire (hfree c w lock rfl), fun _ he => he, fun _ hw => hw, Or.inl ⟨rfl, rfl, rfl⟩⟩
  all_goals first
    | exact .keep rfl rfl rfl rfl ⟨rfl, rfl, rfl⟩
    | exact handles_leave rfl ..
    | exact handles_finish rfl
    | exact handles_returns rfl _
    | exact handles_evict rfl _ _ rfl ⟨rfl, rfl, rfl⟩
    | exact handles_ping rfl _ _ rfl ⟨rfl, rfl, rfl⟩

end Proceed

/-! ### One step -/

section Step

variable {s s' u : State}

/-- What a step can do to the sockets and their locks: at most it stores one more, `x`, with a new
lock. -/
structure Evolves (s s' : State) (x : Socket) : Prop where
  assigned : ∀ w lock, s'.Assigned w lock → s.Assigned w lock ∨
    (w = x ∧ lock = s.locks ∧ s'.locks = s.locks + 1) ∧ (s.tasks x).pc.opens = some x ∧
      (s'.tasks x).pc.opens = none ∧ x < s'.created
  opens : ∀ t w, (s'.tasks t).pc.opens = some w →
    (s.tasks t).pc.opens = some w ∨ t = s.created ∧ w = s.created
  locks : s.locks ≤ s'.locks
  created : s.created ≤ s'.created

/-- **The invariant is kept** by what a step can do. -/
theorem Locks.of_evolves {x : Socket} (h : Locks s) (hmutex : Mutex s'.holds s'.locked)
    (hidle : ∀ t, s'.created ≤ t → s'.tasks t = ⟨.finished, none⟩) (he : Evolves s s' x) :
    Locks s' where
  mutex := hmutex
  idle := hidle
  opens t w hw := by
    obtain hold | ⟨rfl, rfl⟩ := he.opens t w hw
    · exact h.opens t w hold
    · rfl
  known w lock hw := by
    obtain hold | ⟨⟨rfl, rfl, hlocks⟩, -, hopens, hlt⟩ := he.assigned w lock hw
    · obtain ⟨hlock, hcreated, hopens⟩ := h.known w lock hold
      refine ⟨hlock.trans_le he.locks, hcreated.trans_le he.created, ?_⟩
      refine Option.eq_none_iff_forall_ne_some.mpr fun v hv => ?_
      obtain hv | ⟨heq, -⟩ := he.opens w v hv
      · rw [hopens] at hv
        exact absurd hv.symm (Option.some_ne_none v)
      · exact absurd heq hcreated.ne
    · exact ⟨by omega, hlt, hopens⟩
  pairs w lock w' lock' hw hw' := by
    have hne : ∀ w lock, s.Assigned w lock → (s.tasks x).pc.opens = some x →
        w ≠ x ∧ lock ≠ s.locks := by
      intro w lock hw hx
      obtain ⟨hlock, -, hopens⟩ := h.known w lock hw
      refine ⟨?_, hlock.ne⟩
      rintro rfl
      exact absurd (hx.symm.trans hopens) (Option.some_ne_none w)
    obtain hold | ⟨⟨rfl, rfl, -⟩, hx, -⟩ := he.assigned w lock hw
    · obtain hold' | ⟨⟨rfl, rfl, -⟩, hx, -⟩ := he.assigned w' lock' hw'
      · exact h.pairs w lock w' lock' hold hold'
      · exact iff_of_false (hne w lock hold hx).1 (hne w lock hold hx).2
    · obtain hold' | ⟨⟨rfl, rfl, -⟩, -⟩ := he.assigned w' lock' hw'
      · exact iff_of_false (hne w' lock' hold' hx).1.symm (hne w' lock' hold' hx).2.symm
      · exact iff_of_true rfl rfl

/-- What a task is suspended at, or a new task begins with, is all that is new. -/
theorem holds_update {t : ℕ} {task : Task} (htasks : s'.tasks = Function.update s.tasks t task) :
    s'.holds = Function.update s.holds t task.pc.holds := by
  funext v
  simp only [State.holds, htasks, Function.update_apply]
  split <;> rfl

/-- Maps that lose an entry. -/
structure FewerMaps (s s' : State) : Prop where
  connections : ∀ c w, s'.connections.lookup c = some w → s.connections.lookup c = some w
  sendLocks : ∀ c lock, s'.sendLocks.lookup c = some lock → s.sendLocks.lookup c = some lock

theorem FewerMaps.of_eq (hconn : s'.connections = s.connections)
    (hlocks : s'.sendLocks = s.sendLocks) : FewerMaps s s' :=
  ⟨fun _ _ h => hconn ▸ h, fun _ _ h => hlocks ▸ h⟩

theorem fewerMaps_forget (s : State) (c : String) : FewerMaps s (s.forget c) where
  connections c' w h := lookup_of_lookup_forget h
  sendLocks c' lock h := by
    by_cases hc : c' = c
    · rw [hc, State.forget, AList.lookup_erase] at h
      exact absurd h.symm (Option.some_ne_none lock)
    · rwa [State.forget, AList.lookup_erase_ne hc] at h

/-- A new task, which is for a socket of its own or pushes to one that has a lock. -/
theorem Locks.spawn (h : Locks s) {pc : Pc} (htasks : u.tasks = s.tasks)
    (hcreated : u.created = s.created) (hlocks : u.locks = s.locks) (hmaps : FewerMaps s u)
    (hturn : Mutex.Turn s.locked none pc.holds u.locked)
    (hpush : ∀ w lock, pc.push = some (w, lock) → s.Assigned w lock)
    (hopens : ∀ w, pc.opens = some w → w = s.created) : Locks (u.spawn pc) := by
  have hupdate : (u.spawn pc).tasks = Function.update s.tasks s.created ⟨pc, none⟩ := by
    rw [← htasks, ← hcreated]
    rfl
  have hnew : (u.spawn pc).created = s.created + 1 := by
    rw [← hcreated]
    rfl
  have hnone : s.holds s.created = none := by rw [State.holds, h.idle _ le_rfl]; rfl
  refine h.of_evolves (x := s.created) ?_ ?_ ⟨?_, ?_, hlocks.ge, by omega⟩
  · rw [holds_update hupdate]
    exact h.mutex.turn (hnone ▸ hturn)
  · intro t ht
    rw [hupdate, Function.update_of_ne (by omega)]
    exact h.idle t (by omega)
  · intro w lock hw
    refine Or.inl ?_
    cases hw with
    | stored hconn hlock => exact .stored (hmaps.connections _ _ hconn) (hmaps.sendLocks _ _ hlock)
    | @pushing t hp =>
      rw [hupdate, Function.update_apply] at hp
      split at hp
      · exact hpush w lock hp
      · exact .pushing hp
  · intro t w hw
    rw [hupdate, Function.update_apply] at hw
    split at hw
    · next ht => exact Or.inr ⟨ht, hopens w hw⟩
    · exact Or.inl hw

theorem Locks.connect (h : Locks s) (c : String) : Locks (s.connect c) := by
  have hopens : ∀ w, some s.created = some w → w = s.created :=
    fun w hw => (Option.some.inj hw).symm
  rw [State.connect]
  split
  · exact h.spawn rfl rfl rfl (.of_eq rfl rfl) (.keep none)
      (fun w lock hp => absurd hp.symm (Option.some_ne_none _)) hopens
  · have hfewer := fewerMaps_forget s c
    exact h.spawn rfl rfl rfl ⟨hfewer.connections, hfewer.sendLocks⟩ (.keep none)
      (fun w lock hp => absurd hp.symm (Option.some_ne_none _)) hopens

theorem Locks.sendMessage (h : Locks s) (c : String) : Locks (s.sendMessage c) := by
  rw [State.sendMessage]
  split
  · next w lock hw hlock =>
    have hpush : ∀ w' lock', some (w, lock) = some (w', lock') → s.Assigned w' lock' := by
      rintro w' lock' heq
      obtain ⟨rfl, rfl⟩ := Prod.mk.inj (Option.some.inj heq)
      exact .stored hw hlock
    split
    · exact h.spawn rfl rfl rfl (.of_eq rfl rfl) (.keep none) hpush
        fun v hv => absurd hv.symm (Option.some_ne_none v)
    · next hfree =>
      exact h.spawn rfl rfl rfl (.of_eq rfl rfl) (.acquire (Bool.eq_false_iff.mpr hfree)) hpush
        fun v hv => absurd hv.symm (Option.some_ne_none v)
  · exact h

/-- Nothing that the locks depend on has changed. -/
theorem Locks.congr (h : Locks s) (hpc : ∀ t, (s'.tasks t).pc = (s.tasks t).pc)
    (hidle : ∀ t, s'.created ≤ t → s'.tasks t = ⟨.finished, none⟩)
    (hmaps : FewerMaps s s') (hlocked : s'.locked = s.locked) (hlocks : s'.locks = s.locks)
    (hcreated : s'.created = s.created) : Locks s' := by
  have hholds : s'.holds = s.holds := funext fun t => congrArg Pc.holds (hpc t)
  refine h.of_evolves (x := 0) (by rw [hholds, hlocked]; exact h.mutex) hidle
    ⟨fun w lock hw => Or.inl ?_, fun t w hw => Or.inl ?_, hlocks.ge, hcreated.ge⟩
  · cases hw with
    | stored hconn hlock => exact .stored (hmaps.connections _ _ hconn) (hmaps.sendLocks _ _ hlock)
    | @pushing t hp => exact .pushing (hpc t ▸ hp)
  · rwa [hpc] at hw

/-- What is done before the first await of `disconnect`, or nothing. -/
theorem fewerMaps_perform (s : State) (t : ℕ) (next : Then) : FewerMaps s (s.perform t next) := by
  cases next with
  | await pc => exact .of_eq rfl rfl
  | disconnect c cause after =>
    have hfewer := fewerMaps_forget s c
    exact ⟨hfewer.connections, hfewer.sendLocks⟩

theorem perform_locks (s : State) (t : ℕ) (next : Then) :
    (s.perform t next).locked = s.locked ∧ (s.perform t next).locks = s.locks ∧
      (s.perform t next).created = s.created := by
  cases next <;> exact ⟨rfl, rfl, rfl⟩

/-- What an awaited call does leaves the locks alone. -/
theorem settle_locks (s : State) (pc : Pc) (r : Reply) :
    (s.settle pc r).locked = s.locked ∧ (s.settle pc r).locks = s.locks := by
  have heffect : (s.effect pc).locked = s.locked ∧ (s.effect pc).locks = s.locks := by
    cases pc <;> exact ⟨rfl, rfl⟩
  cases r with
  | done | lost => exact heffect
  | _ => exact ⟨rfl, rfl⟩

/-- **A task goes on.** -/
theorem Locks.resume (h : Locks s) {t : ℕ} (hs : step s (.resume t) = some s') : Locks s' := by
  have hidle := fun v hv => idle_of_step h.idle hs (t := v) hv
  obtain ⟨r, hr, rfl⟩ := Option.map_eq_some_iff.mp hs
  have hfree : ∀ c w lock, (s.tasks t).pc = .locking c w lock → s.locked lock = false := by
    intro c w lock hpc
    rw [State.wakes, hpc] at hr
    by_contra hlocked
    rw [Bool.not_eq_false] at hlocked
    simp [hlocked] at hr
  have hhandles := handles_proceed (s := s) r hfree
  obtain ⟨htasks, hcreated⟩ := proceed_tasks s (s.tasks t).pc r
  dsimp only at hidle ⊢
  generalize proceed s (s.tasks t).pc r = p at hhandles htasks hcreated hidle ⊢
  obtain ⟨hlocked, hlocks, hcreated'⟩ := perform_locks p.1 t p.2
  have hupdate : (p.1.perform t p.2).tasks = Function.update s.tasks t (p.2.task p.1) := by
    rw [perform_tasks, htasks]
  have hmutex : Mutex (p.1.perform t p.2).holds (p.1.perform t p.2).locked := by
    rw [holds_update hupdate, hlocked]
    exact h.mutex.turn hhandles.turn
  have hpushes : ∀ v w lock, ((p.1.perform t p.2).tasks v).pc.push = some (w, lock) →
      s.Assigned w lock := by
    intro v w lock hp
    rw [hupdate, Function.update_apply] at hp
    split at hp
    · exact .pushing (hhandles.push _ hp)
    · exact .pushing hp
  have hopens : ∀ v w, ((p.1.perform t p.2).tasks v).pc.opens = some w →
      (s.tasks v).pc.opens = some w := by
    intro v w hw
    rw [hupdate, Function.update_apply] at hw
    split at hw
    · next hv => exact hv ▸ hhandles.opens w hw
    · exact hw
  have hfewer := fewerMaps_perform p.1 t p.2
  obtain ⟨hconn, hsend, hnum⟩ | ⟨c, w, hpc, rfl⟩ := hhandles.maps
  · refine h.of_evolves (x := 0) hmutex hidle ⟨fun w lock hw => Or.inl ?_,
      fun v w hw => Or.inl (hopens v w hw), (hlocks.trans hnum).ge, (hcreated'.trans hcreated).ge⟩
    cases hw with
    | stored hw hlock =>
      exact .stored (hconn ▸ hfewer.connections _ _ hw) (hsend ▸ hfewer.sendLocks _ _ hlock)
    | @pushing v hp => exact hpushes v w lock hp
  · have hstored : (s.tasks t).pc.opens = some w := by rw [hpc]; rfl
    obtain rfl := h.opens t w hstored
    have hlt : t < s.created := by
      by_contra hge
      rw [h.idle t (Nat.le_of_not_lt hge)] at hpc
      cases hpc
    refine h.of_evolves (x := t) hmutex hidle ⟨fun w lock hw => ?_,
      fun v w hw => Or.inl (hopens v w hw), Nat.le_succ _, le_rfl⟩
    cases hw with
    | @stored c' hw hlock =>
      -- the maps hold the new pair at `c`, and elsewhere what they held
      simp only [State.perform, State.goto, State.store, lookup_setItem] at hw hlock
      split at hw
      · next hc =>
        rw [if_pos hc] at hlock
        refine Or.inr ⟨⟨(Option.some.inj hw).symm, (Option.some.inj hlock).symm, rfl⟩, hstored, ?_,
          hlt⟩
        rw [hupdate, Function.update_self]
        rfl
      · next hc =>
        rw [if_neg hc] at hlock
        exact Or.inl (.stored hw hlock)
    | @pushing v hp => exact Or.inl (hpushes v w lock hp)

/-- **A step.** -/
theorem Locks.step (h : Locks s) {a : Action} (hs : Gateway.step s a = some s') : Locks s' := by
  cases a with
  | connect c =>
    obtain rfl := Option.some.inj hs
    exact h.connect c
  | sendMessage c =>
    obtain rfl := Option.some.inj hs
    exact h.sendMessage c
  | answer t r =>
    have hidle := fun v hv => idle_of_step h.idle hs (t := v) hv
    obtain ⟨-, rfl⟩ := answer_eq_some_iff.mp hs
    have htables := sameTables_settle s (s.tasks t).pc r
    refine h.congr (fun v => ?_) hidle (.of_eq htables.connections htables.sendLocks) ?_ ?_
      htables.created
    · simp only [Function.update_apply]
      split
      · next hv => rw [hv]
      · rfl
    · exact (settle_locks s (s.tasks t).pc r).1
    · exact (settle_locks s (s.tasks t).pc r).2
  | resume t => exact h.resume hs
  | clock now | expire c | track tracker =>
    have hidle := fun v hv => idle_of_step h.idle hs (t := v) hv
    obtain rfl := Option.some.inj hs
    exact h.congr (fun _ => rfl) hidle (.of_eq rfl rfl) rfl rfl rfl

theorem locks_start : Locks .start := by
  have hpc : ∀ t, (State.start.tasks t).pc.holds = none ∧ (State.start.tasks t).pc.push = none ∧
      (State.start.tasks t).pc.opens = none := by
    intro t
    simp only [State.start]
    split <;> exact ⟨rfl, rfl, rfl⟩
  have hassigned : ∀ w lock, ¬State.start.Assigned w lock := by
    intro w lock hw
    cases hw with
    | stored hconn => exact absurd hconn.symm (Option.some_ne_none w)
    | @pushing t hp =>
      rw [(hpc t).2.1] at hp
      exact absurd hp.symm (Option.some_ne_none _)
  refine ⟨⟨fun {t u l} ht _ => ?_, fun l => iff_of_false Bool.false_ne_true ?_⟩, fun t ht => ?_,
    fun t w hw => ?_, fun w lock hw => absurd hw (hassigned w lock),
    fun w lock _ _ hw => absurd hw (hassigned w lock)⟩
  · exact absurd (ht.symm.trans (hpc t).1) (Option.some_ne_none l)
  · rintro ⟨t, ht⟩
    exact absurd (ht.symm.trans (hpc t).1) (Option.some_ne_none l)
  · have hne : t ≠ 0 := Nat.pos_iff_ne_zero.mp ht
    simp only [State.start, if_neg hne]
  · exact absurd (hw.symm.trans (hpc t).2.2) (Option.some_ne_none w)

theorem locks_of_reachable (h : Transition.Reachable Gateway.step (· = .start) s) : Locks s := by
  refine h.invariant (fun s hs => ?_) fun s a s' hs hstep => hs.step hstep
  rw [hs]
  exact locks_start

end Step

/-! ### One at a time -/

section Waiting

variable {s s' : State} {t u lock : ℕ}

/-- Whoever pushes with a lock that another task holds waits for it. -/
theorem Locks.waits (h : Locks s) {w : Socket} (htu : t ≠ u) (ht : s.holds t = some lock)
    (hu : (s.tasks u).pc.push = some (w, lock)) :
    ∃ c, (s.tasks u).pc = .locking c w lock ∧ s.wakes u = none := by
  have hlocked : s.locked lock = true := (h.mutex.locked_iff lock).mpr ⟨t, ht⟩
  cases hpc : (s.tasks u).pc with
  | locking c w' lock' =>
    rw [hpc] at hu
    obtain ⟨rfl, rfl⟩ := Prod.mk.inj (Option.some.inj hu)
    refine ⟨c, rfl, ?_⟩
    rw [State.wakes, hpc]
    exact if_pos hlocked
  | sending c w' lock' =>
    rw [hpc] at hu
    obtain ⟨rfl, rfl⟩ := Prod.mk.inj (Option.some.inj hu)
    have hholds : s.holds u = some lock' := by rw [State.holds, hpc]; rfl
    exact absurd (h.mutex.unique ht hholds) htu
  | _ =>
    rw [hpc] at hu
    exact absurd hu.symm (Option.some_ne_none _)

/-- **One push at a time sends to a socket**: while one does, every other push to the socket waits
for the same lock, whatever has become of the conversation since. -/
theorem waits_of_sending (h : Transition.Reachable step (· = .start) s) {c : String} {w : Socket}
    {lock' : ℕ} (htu : t ≠ u) (ht : (s.tasks t).pc = .sending c w lock)
    (hu : (s.tasks u).pc.push = some (w, lock')) :
    ∃ c', (s.tasks u).pc = .locking c' w lock ∧ s.wakes u = none := by
  have hlocks := locks_of_reachable h
  have hpush : (s.tasks t).pc.push = some (w, lock) := by rw [ht]; rfl
  have hholds : s.holds t = some lock := by rw [State.holds, ht]; rfl
  obtain rfl := (hlocks.pairs w lock w lock' (.pushing hpush) (.pushing hu)).mp rfl
  exact hlocks.waits htu hholds hu

end Waiting

/-- A socket is connected, two pushes arrive for it, and then a client that takes its place. -/
def twoPushes : List Action :=
  [.connect "conv-1", .answer 1 .done, .resume 1, .sendMessage "conv-1", .sendMessage "conv-1",
    .connect "conv-1"]

theorem waits_of_sending_twoPushes : ∃ s, Transition.run step .start twoPushes = some s ∧
    ∃ c', (s.tasks 3).pc = .locking c' 1 0 ∧ s.wakes 3 = none := by
  have hr : Transition.run step .start twoPushes = some _ := rfl
  exact ⟨_, hr, waits_of_sending (t := 2) (c := "conv-1") (Transition.reachable_of_run rfl hr)
    (by decide) rfl rfl⟩

/-- The ping of the sweep does not wait: it is sent while the push is. -/
example : ∃ s, Transition.run step .start (twoPushes.dropLast ++ [.answer 0 .done, .resume 0]) =
    some s ∧ (s.tasks 0).pc = .pinging "conv-1" 1 [] [] ∧ (s.tasks 2).pc = .sending "conv-1" 1 0 :=
  ⟨_, rfl, rfl, rfl⟩

/-! ### The lock is given back -/

/-- The task whose step it is. -/
def Action.task : Action → Option ℕ
  | .answer t _ | .resume t => some t
  | _ => none

/-- How many awaits a push with a lock has before it, at most. -/
def Pc.stage : Pc → ℕ
  | .sending .. => 5
  | .unregistering _ => 4
  | .reading _ => 3
  | .offlining .. => 2
  | .closing _ => 1
  | _ => 0

/-- How many steps it has before it: each await is answered and then resumed. -/
def Task.work (k : Task) : ℕ := 2 * k.pc.stage - k.inbox.isSome.toNat

/-- A push that holds its lock, or has ended. -/
def Task.Holding (lock : ℕ) (k : Task) : Prop := k.pc.holds = some lock ∨ k = ⟨.finished, none⟩

section Progress

variable {s s' : State} {t lock : ℕ}

theorem stage_of_holds {pc : Pc} (h : pc.holds = some lock) : 1 ≤ pc.stage ∧ pc.stage ≤ 5 := by
  cases pc with
  | sending | unregistering | reading | offlining | closing => simp [Pc.stage]
  | _ => cases h

theorem Task.work_le_ten (k : Task) (h : k.pc.holds = some lock) : 1 ≤ k.work ∧ k.work ≤ 10 := by
  obtain ⟨hlow, hhigh⟩ := stage_of_holds h
  have hbit := k.inbox.isSome.toNat_le
  rw [Task.work]
  omega

/-- A call of `disconnect` under a lock returns. -/
theorem holding_returns {after : After} (h : after.lock = some lock) (raised : Bool) :
    (s.returns after raised).2.task (s.returns after raised).1 = ⟨.finished, none⟩ := by
  cases after with
  | release lock' => rfl
  | _ => cases h

/-- It returns, or there is a socket to close. -/
theorem holding_finish {d : Cleanup} (h : d.after.lock = some lock) :
    Task.Holding lock ((s.finish d).2.task (s.finish d).1) ∧
      ((s.finish d).2.task (s.finish d).1).work ≤ 2 := by
  rw [State.finish]
  split
  · exact ⟨Or.inl h, le_rfl⟩
  · rw [holding_returns h]
    exact ⟨Or.inr rfl, Nat.zero_le 2⟩

/-- **From one await to the next**, a push with a lock gets nearer to its end. -/
theorem holding_proceed {pc : Pc} (h : pc.holds = some lock) (r : Reply) :
    Task.Holding lock ((proceed s pc r).2.task (proceed s pc r).1) ∧
      ((proceed s pc r).2.task (proceed s pc r).1).work + 2 ≤ 2 * pc.stage := by
  obtain ⟨hstage, -⟩ := stage_of_holds h
  have hreturns : ∀ (d : Cleanup) raised, d.after.lock = some lock →
      Task.Holding lock ((s.returns d.after raised).2.task (s.returns d.after raised).1) ∧
        ((s.returns d.after raised).2.task (s.returns d.after raised).1).work + 2 ≤
          2 * pc.stage := by
    intro d raised hd
    rw [holding_returns hd]
    refine ⟨Or.inr rfl, ?_⟩
    have hwork : Task.work ⟨.finished, none⟩ = 0 := rfl
    omega
  cases pc with
  | sending c w lock' =>
    cases r with
    | done => exact ⟨Or.inr rfl, (by decide : 0 + 2 ≤ 2 * 5)⟩
    | _ => exact ⟨Or.inl h, le_rfl⟩
  | unregistering d =>
    cases r with
    | done => exact ⟨Or.inl h, le_rfl⟩
    | _ => exact hreturns d true h
  | reading d =>
    cases r with
    | found meta_ =>
      rw [proceed]
      split
      · obtain ⟨hholding, hwork⟩ := holding_finish (s := s) h
        exact ⟨hholding, by simp only [Pc.stage]; omega⟩
      · exact ⟨Or.inl h, le_rfl⟩
    | _ => exact hreturns d true h
  | offlining d meta_ =>
    cases r with
    | done =>
      obtain ⟨hholding, hwork⟩ := holding_finish (s := s) h
      exact ⟨hholding, by simp only [Pc.stage]; exact Nat.add_le_add_right hwork 2⟩
    | _ => exact hreturns d true h
  | closing d => exact hreturns d false h
  | _ => cases h

/-- A step of the task itself uses up some of its work. -/
theorem holding_step {a : Action} (h : (s.tasks t).pc.holds = some lock)
    (ha : a.task = some t) (hs : step s a = some s') :
    (s'.tasks t).Holding lock ∧ (s'.tasks t).work + 1 ≤ (s.tasks t).work := by
  obtain ⟨hstage, -⟩ := stage_of_holds h
  cases a with
  | answer v r =>
    obtain rfl := Option.some.inj ha
    obtain ⟨hinbox, -, htask⟩ := task_answer hs
    rw [htask]
    refine ⟨Or.inl h, ?_⟩
    simp only [Task.work, hinbox, Option.isSome_some, Option.isSome_none, Bool.toNat_true,
      Bool.toNat_false]
    omega
  | resume v =>
    obtain rfl := Option.some.inj ha
    obtain ⟨r, hr, htask⟩ := task_resume hs
    have hinbox : (s.tasks v).inbox = some r := by
      obtain hinbox | ⟨c, w, lock', hpc⟩ := inbox_of_wakes hr
      · exact hinbox
      · rw [hpc] at h
        cases h
    obtain ⟨hholding, hwork⟩ := holding_proceed (s := s) h r
    rw [htask]
    refine ⟨hholding, ?_⟩
    simp only [Task.work, hinbox, Option.isSome_some, Bool.toNat_true] at hwork ⊢
    omega
  | _ => cases ha

/-- A task that has ended takes no steps. -/
theorem task_ne_of_ended {a : Action} (h : s.tasks t = ⟨.finished, none⟩)
    (hs : step s a = some s') : a.task ≠ some t := by
  intro ha
  cases a with
  | answer v r =>
    obtain rfl := Option.some.inj ha
    obtain ⟨-, hadmits, -⟩ := task_answer hs
    rw [h] at hadmits
    cases r <;> cases hadmits
  | resume v =>
    obtain rfl := Option.some.inj ha
    obtain ⟨r, hr, -⟩ := task_resume hs
    rw [State.wakes, h] at hr
    cases hr
  | _ => cases ha

theorem task_eq_of_ne {a : Action} (ht : t < s.created) (ha : a.task ≠ some t)
    (hs : step s a = some s') : s'.tasks t = s.tasks t :=
  task_step_eq (Or.inl ht) (by rintro rfl; exact ha rfl) (by rintro r rfl; exact ha rfl) hs

/-- **A run**, seen by a push that has its lock when the run begins. -/
theorem holding_run (ht : t < s.created) (h : (s.tasks t).Holding lock) {as : List Action}
    (hr : Transition.run step s as = some s') :
    (s'.tasks t).Holding lock ∧
      as.countP (fun a => a.task = some t) + (s'.tasks t).work ≤ (s.tasks t).work := by
  have hone : ∀ s a s', (t < s.created ∧ (s.tasks t).Holding lock) → step s a = some s' →
      (t < s'.created ∧ (s'.tasks t).Holding lock) ∧
        (s'.tasks t).work + (if a.task = some t then 1 else 0) ≤ (s.tasks t).work := by
    rintro s a s' ⟨hlt, hh⟩ hs
    have hlt' := hlt.trans_le (created_le_of_step hs)
    split
    · next ha =>
      obtain hh | hh := hh
      · obtain ⟨hholding, hwork⟩ := holding_step hh ha hs
        exact ⟨⟨hlt', hholding⟩, hwork⟩
      · exact absurd ha (task_ne_of_ended hh hs)
    · next ha =>
      have heq := task_eq_of_ne hlt ha hs
      exact ⟨⟨hlt', heq ▸ hh⟩, heq ▸ le_rfl⟩
  have hrun := (Transition.always_of_invariant (fun s a s' hs hstep => (hone s a s' hs hstep).1)
    ⟨ht, h⟩ as).run hr
  refine ⟨hrun.2, Transition.countP_add_work_le (fun s => (s.tasks t).work)
    (fun s a s' hs hstep => (hone s a s' hs hstep).1) (fun s a s' hs hstep => ?_) ⟨ht, h⟩ hr⟩
  simpa using (hone s a s' hs hstep).2

/-- Its own steps leave the other tasks alone. -/
theorem tasks_of_own {a : Action} {u : ℕ} (ha : a.task = some t) (hu : u ≠ t)
    (hs : step s a = some s') : s'.tasks u = s.tasks u := by
  cases a with
  | answer v r =>
    obtain rfl := Option.some.inj ha
    obtain ⟨-, rfl⟩ := answer_eq_some_iff.mp hs
    exact Function.update_of_ne hu _ _
  | resume v =>
    obtain rfl := Option.some.inj ha
    obtain ⟨r, -, rfl⟩ := Option.map_eq_some_iff.mp hs
    rw [perform_tasks, (proceed_tasks s (s.tasks v).pc r).1]
    exact Function.update_of_ne hu _ _
  | _ => cases ha

/-- Whoever has a lock is not kept waiting. -/
theorem exists_step_of_holds (h : (s.tasks t).pc.holds = some lock) :
    ∃ a s', a.task = some t ∧ step s a = some s' := by
  cases hinbox : (s.tasks t).inbox with
  | none =>
    have hadmits : (s.tasks t).pc.admits .done = true := by
      cases hpc : (s.tasks t).pc with
      | sending | unregistering | reading | offlining | closing => rfl
      | _ =>
        rw [hpc] at h
        cases h
    exact ⟨.answer t .done, _, rfl, answer_eq_some_iff.mpr ⟨⟨hinbox, hadmits⟩, rfl⟩⟩
  | some r =>
    have hwakes : s.wakes t = some r := by
      rw [State.wakes]
      split
      · next c w lock' hpc =>
        rw [hpc] at h
        cases h
      · exact hinbox
    exact ⟨.resume t, _, rfl, Option.map_eq_some_iff.mpr ⟨r, hwakes, rfl⟩⟩

/-- Left to itself, it ends. -/
theorem exists_run_ended (h : (s.tasks t).Holding lock) : ∃ as s',
    Transition.run step s as = some s' ∧ (∀ a ∈ as, a.task = some t) ∧
      s'.tasks t = ⟨.finished, none⟩ ∧ ∀ u ≠ t, s'.tasks u = s.tasks u := by
  induction hn : (s.tasks t).work using Nat.strong_induction_on generalizing s with
  | _ n ih =>
    obtain h | h := h
    · obtain ⟨a, s₁, ha, hs⟩ := exists_step_of_holds h
      obtain ⟨hholding, hwork⟩ := holding_step h ha hs
      obtain ⟨as, s', hrun, hown, hended, hothers⟩ := ih _ (by omega) hholding rfl
      refine ⟨a :: as, s', ?_, ?_, hended, fun u hu => ?_⟩
      · rw [Transition.run, hs]
        exact hrun
      · intro b hb
        obtain rfl | hb := List.mem_cons.mp hb
        · exact ha
        · exact hown b hb
      · rw [hothers u hu, tasks_of_own ha hu hs]
    · exact ⟨[], s, rfl, fun a ha => absurd ha (List.not_mem_nil), h, fun _ _ => rfl⟩

/-- **A push gives its lock back** after ten steps of its own at the latest, in every order of the
tasks, and until then one of its steps can be taken. -/
theorem returned_of_run (h : Transition.Reachable step (· = .start) s)
    (hl : s.holds t = some lock) {as : List Action} (hr : Transition.run step s as = some s') :
    as.countP (fun a => a.task = some t) ≤ 10 ∧
      (s'.tasks t = ⟨.finished, none⟩ ∨ s'.holds t = some lock ∧
        as.countP (fun a => a.task = some t) < 10 ∧ ∃ a, a.task = some t ∧ (step s' a).isSome) := by
  have hlt : t < s.created := by
    by_contra hge
    rw [State.holds, (locks_of_reachable h).idle t (Nat.le_of_not_lt hge)] at hl
    exact absurd hl.symm (Option.some_ne_none lock)
  obtain ⟨-, hten⟩ := (s.tasks t).work_le_ten hl
  obtain ⟨hholds | hended, hcount⟩ := holding_run hlt (Or.inl hl) hr
  · obtain ⟨hone, -⟩ := (s'.tasks t).work_le_ten hholds
    obtain ⟨a, s'', ha, hs⟩ := exists_step_of_holds hholds
    exact ⟨by omega, Or.inr ⟨hholds, by omega, a, ha, by rw [hs]; rfl⟩⟩
  · exact ⟨by omega, Or.inl hended⟩

/-- The holder of a lock, if there is one, can give it back. -/
theorem Locks.exists_run_free (h : Locks s) (lock : ℕ) : ∃ as s', as.length ≤ 10 ∧
    (∀ a ∈ as, ∃ u, s.holds u = some lock ∧ a.task = some u) ∧
      Transition.run Gateway.step s as = some s' ∧ s'.locked lock = false ∧
        ∀ u, s.holds u ≠ some lock → s'.tasks u = s.tasks u := by
  obtain hfree | ⟨v, hv, hunique⟩ := h.mutex.free_or_held lock
  · exact ⟨[], s, Nat.zero_le 10, fun a ha => absurd ha List.not_mem_nil, rfl, hfree,
      fun _ _ => rfl⟩
  · obtain ⟨as, s', hrun, hown, hended, hothers⟩ := exists_run_ended (Or.inl hv)
    have hlt : v < s.created := by
      by_contra hge
      rw [State.holds, h.idle v (Nat.le_of_not_lt hge)] at hv
      exact absurd hv.symm (Option.some_ne_none lock)
    have hlength : as.length ≤ 10 := by
      obtain ⟨-, hcount⟩ := holding_run hlt (Or.inl hv) hrun
      have hall : as.countP (fun a : Action => a.task = some v) = as.length :=
        List.countP_eq_length.mpr fun a ha => decide_eq_true (hown a ha)
      obtain ⟨-, hten⟩ := (s.tasks v).work_le_ten hv
      omega
    have hlocks : Locks s' :=
      (Transition.always_of_invariant (fun _ _ _ hs hstep => Locks.step hs hstep) h as).run hrun
    refine ⟨as, s', hlength, fun a ha => ⟨v, hv, hown a ha⟩, hrun, ?_, fun u hu => ?_⟩
    · refine hlocks.mutex.free_of_forall fun u hu => ?_
      by_cases huv : u = v
      · rw [huv, State.holds, hended] at hu
        exact absurd hu.symm (Option.some_ne_none lock)
      · rw [State.holds, hothers u huv] at hu
        exact huv (hunique u hu)
    · refine hothers u ?_
      rintro rfl
      exact hu hv

/-- What a push that waits does once it is its turn: it takes the lock, sends and gives it back. -/
def sends (t : ℕ) : List Action := [.resume t, .answer t .done, .resume t]

/-- A push that finds its lock free. -/
theorem run_sends {c : String} {w : Socket} (ht : (s.tasks t).pc = .locking c w lock)
    (hfree : s.locked lock = false) : ∃ s', Transition.run step s (sends t) = some s' ∧
      s'.tasks t = ⟨.finished, none⟩ ∧ s'.locked lock = false ∧
        ∀ u ≠ t, s'.tasks u = s.tasks u := by
  have hlocked : step s (.resume t) =
      some ((s.setLock lock true).goto t (.sending c w lock)) := by
    simp [step, State.wakes, ht, hfree, proceed, State.perform]
  have hsent : step ((s.setLock lock true).goto t (.sending c w lock)) (.answer t .done) =
      some { s.setLock lock true with
        tasks := Function.update s.tasks t ⟨.sending c w lock, some .done⟩ } := by
    simp [step, State.answer, State.goto, State.setLock, Pc.admits, State.settle, State.effect,
      State.reply]
  simp only [sends, Transition.run, hlocked, hsent, Option.bind_some]
  simp +contextual [step, State.wakes, proceed, State.perform, State.goto, State.setLock]

/-- Pushes that wait for a free lock, one after the other, in any order. -/
theorem run_flatMap_sends {ts : List ℕ} (hnodup : ts.Nodup)
    (hwait : ∀ t ∈ ts, ∃ c w, (s.tasks t).pc = .locking c w lock)
    (hfree : s.locked lock = false) : ∃ s',
    Transition.run step s (ts.flatMap sends) = some s' ∧
      (∀ t ∈ ts, s'.tasks t = ⟨.finished, none⟩) ∧ s'.locked lock = false ∧
        ∀ u ∉ ts, s'.tasks u = s.tasks u := by
  induction ts generalizing s with
  | nil => exact ⟨s, rfl, fun t ht => absurd ht List.not_mem_nil, hfree, fun _ _ => rfl⟩
  | cons t ts ih =>
    rw [List.nodup_cons] at hnodup
    obtain ⟨⟨c, w, ht⟩, hwait⟩ := List.forall_mem_cons.mp hwait
    obtain ⟨s₁, hr, hended, hfree, hothers⟩ := run_sends ht hfree
    have hwait₁ (u : ℕ) (hu : u ∈ ts) : ∃ c w, (s₁.tasks u).pc = .locking c w lock := by
      have hut : u ≠ t := fun h => hnodup.1 (h ▸ hu)
      rw [hothers u hut]
      exact hwait u hu
    obtain ⟨s', hr', hended', hfree', hothers'⟩ := ih hnodup.2 hwait₁ hfree
    refine ⟨s', ?_, ?_, hfree', fun u hu => ?_⟩
    · rw [List.flatMap_cons, Transition.run_append, hr]
      exact hr'
    · refine List.forall_mem_cons.mpr ⟨?_, hended'⟩
      rw [hothers' t hnodup.1, hended]
    · rw [List.mem_cons, not_or] at hu
      rw [hothers' u hu.2, hothers u hu.1]

/-- The first push fails, and the second sends. -/
def failedPush : List Action :=
  [.answer 2 .raised, .resume 2, .answer 2 .done, .resume 2, .answer 2 .raised, .resume 2,
    .resume 3, .answer 3 .done]

theorem returned_of_run_failedPush : ∃ s s', Transition.run step .start twoPushes = some s ∧
    Transition.run step s failedPush = some s' ∧
      failedPush.countP (fun a => a.task = some 2) ≤ 10 ∧
      (s'.tasks 2 = ⟨.finished, none⟩ ∨ s'.holds 2 = some 0 ∧
        failedPush.countP (fun a => a.task = some 2) < 10 ∧
          ∃ a, a.task = some 2 ∧ (step s' a).isSome) := by
  have hr : Transition.run step .start twoPushes = some _ := rfl
  refine ⟨_, _, hr, rfl, ?_⟩
  exact returned_of_run (Transition.reachable_of_run rfl hr) rfl rfl

/-- **Whoever waits can still send**: in at most ten steps the lock is given back by the one who has
it, and then the pushes that wait for it take it, send and end, in the order of a queue or any
other. -/
theorem exists_run_sent (h : Transition.Reachable step (· = .start) s) {ts : List ℕ}
    (hnodup : ts.Nodup) (hwait : ∀ t ∈ ts, ∃ c w, (s.tasks t).pc = .locking c w lock) :
    ∃ as s', as.length ≤ 10 ∧ (∀ a ∈ as, ∃ u, s.holds u = some lock ∧ a.task = some u) ∧
      Transition.run step s (as ++ ts.flatMap sends) = some s' ∧
      (∀ t ∈ ts, s'.tasks t = ⟨.finished, none⟩) ∧ s'.locked lock = false := by
  obtain ⟨as, s₁, hlength, hown, hrun, hfree, hothers⟩ :=
    (locks_of_reachable h).exists_run_free lock
  have hwait₁ (t : ℕ) (ht : t ∈ ts) : ∃ c w, (s₁.tasks t).pc = .locking c w lock := by
    obtain ⟨c, w, hpc⟩ := hwait t ht
    have hnot : s.holds t ≠ some lock := by
      rw [State.holds, hpc]
      exact (Option.some_ne_none lock).symm
    exact ⟨c, w, by rw [hothers t hnot, hpc]⟩
  obtain ⟨s', hrun', hended, hlocked, -⟩ := run_flatMap_sends hnodup hwait₁ hfree
  refine ⟨as, s', hlength, hown, ?_, hended, hlocked⟩
  rw [Transition.run_append, hrun]
  exact hrun'

/-- One push sends and two wait. -/
def threePushes : List Action :=
  [.connect "conv-1", .answer 1 .done, .resume 1, .sendMessage "conv-1", .sendMessage "conv-1",
    .sendMessage "conv-1"]

theorem exists_run_sent_threePushes : ∃ s, Transition.run step .start threePushes = some s ∧
    ∃ as s', as.length ≤ 10 ∧ (∀ a ∈ as, ∃ u, s.holds u = some 0 ∧ a.task = some u) ∧
      Transition.run step s (as ++ [3, 4].flatMap sends) = some s' ∧
      (∀ t ∈ [3, 4], s'.tasks t = ⟨.finished, none⟩) ∧ s'.locked 0 = false := by
  have hr : Transition.run step .start threePushes = some _ := rfl
  refine ⟨_, hr, exists_run_sent (Transition.reachable_of_run rfl hr) (by decide) ?_⟩
  exact List.forall_mem_cons.mpr ⟨⟨"conv-1", 1, rfl⟩, fun t ht =>
    ⟨"conv-1", 1, by rw [List.mem_singleton.mp ht]; rfl⟩⟩

end Progress

end Gateway

end TitanChat
