import TitanChat.ConnectionManager
import TitanChat.Internal.Handover

/-!
# Several connects for one conversation

`connect` looks whether the conversation has a socket, closes it if so, and accepts the new one. The
socket is put into `connections` only after that. So two calls that overlap may both find nothing to
close, and the one that comes to its assignment last replaces a socket that stays open: nobody has a
reference to it but its own endpoint.

The calls are newcomers of a slot, in the sense of `Internal/Handover.lean`: `slot` says how, and
`step_simulates` is the simulation. From there comes the exact statement, that one socket is open
when all calls have returned if and only if each of them has found no entry where it stores its own.

A socket counts as closed when the manager's `close` of it is over, whether or not that has raised;
`_force_close` does not tell the difference. None of the calls fails.

## Main definitions

* `Connects`, `Connects.step`: the calls
* `OneOpen`: the law
* `StoresInVacancy`: the guard

## Main results

* `oneOpen_iff`: when one socket is open
-/

namespace TitanChat

namespace Gateway

/-- The endpoint waits for a frame: `connect` has returned. -/
def Pc.isReceiving : Pc → Bool
  | .receiving .. => true
  | _ => false

/-- Some calls of `connect` for one conversation, and their sockets. -/
structure Connects where
  state : State
  /-- The task of the first call. -/
  first : ℕ
  /-- The sockets that were accepted. -/
  accepted : List Socket
  /-- The sockets that the manager has closed. -/
  closed : List Socket

namespace Connects

/-- Before the first call: the socket that the conversation has was accepted. -/
def start (c : String) (s : State) : Connects := ⟨s, s.created, (s.connections.lookup c).toList, []⟩

/-- Task `t` is one of the calls. -/
def IsCall (k : Connects) (t : ℕ) : Prop := k.first ≤ t ∧ t < k.state.created

instance (k : Connects) (t : ℕ) : Decidable (k.IsCall t) := inferInstanceAs (Decidable (_ ∧ _))

/-- The steps of calls for `c` that do not fail, and those of the world around. -/
def allows (c : String) (k : Connects) : Action → Bool
  | .connect c' => c' = c
  | .answer t r => k.IsCall t &&
    match (k.state.tasks t).pc, r with
    | .superseding .., _ | .accepting .., .done | .registering .., .done => true
    | _, _ => false
  | .resume t => k.IsCall t
  | .clock _ | .expire _ | .track _ => true
  | .sendMessage _ => false

/-- The socket that a step accepts. -/
def accepts (k : Connects) : Action → Option Socket
  | .answer t _ =>
    match (k.state.tasks t).pc with
    | .accepting _ w => some w
    | _ => none
  | _ => none

/-- The socket that a step closes. -/
def closes (k : Connects) : Action → Option Socket
  | .answer t _ =>
    match (k.state.tasks t).pc with
    | .superseding _ _ old => some old
    | _ => none
  | _ => none

def step (c : String) (k : Connects) (a : Action) : Option Connects :=
  if k.allows c a then
    (Gateway.step k.state a).map fun s =>
      ⟨s, k.first, k.accepted ++ (k.accepts a).toList, k.closed ++ (k.closes a).toList⟩
  else none

/-- There has been a call, and all calls have returned. -/
def Returned (k : Connects) : Prop :=
  k.first < k.state.created ∧ ∀ t < k.state.created, k.first ≤ t →
    (k.state.tasks t).pc.isReceiving = true

instance (k : Connects) : Decidable k.Returned :=
  @instDecidableAnd _ _ _ (Nat.decidableBallLT ..)

/-- Exactly one socket that was accepted has not been closed, and it is the one in `connections`. -/
def OneOpen (c : String) (k : Connects) : Prop :=
  (k.state.connections.lookup c).isSome ∧
    ∀ w, w ∈ k.accepted ∧ w ∉ k.closed ↔ k.state.connections.lookup c = some w

/-- A call that stores its socket finds no entry in its place. -/
def StoresInVacancy (c : String) (k : Connects) : Action → Prop
  | .resume t => (k.state.tasks t).pc.isAccepting → k.state.connections.lookup c = none
  | _ => True

instance (c : String) (k : Connects) : ∀ a, Decidable (StoresInVacancy c k a)
  | .resume t => inferInstanceAs (Decidable ((k.state.tasks t).pc.isAccepting → _))
  | .connect _ | .answer .. | .clock _ | .expire _ | .track _ | .sendMessage _ => .isTrue trivial

/-! ### The calls as newcomers -/

def phaseOf : Task → Handover.Phase
  | ⟨.superseding _ _ old, none⟩ => .evicting old
  | ⟨.superseding .., some _⟩ | ⟨.accepting .., none⟩ => .waiting
  | ⟨.accepting .., some _⟩ => .admitted
  | _ => .inside

/-- The entry of the conversation as a slot. -/
def slot (c : String) (k : Connects) : Handover.Slot where
  entry := k.state.connections.lookup c
  phase t :=
    if k.IsCall t then phaseOf (k.state.tasks t) else if t ∈ k.accepted then .inside else .away
  admitted := k.accepted
  evicted := k.closed

/-- The move that a step is; the other steps change nothing in the slot. -/
def move (k : Connects) : Action → Option Handover.Move
  | .connect _ => some (.come k.state.created)
  | .answer t _ =>
    match (k.state.tasks t).pc with
    | .superseding .. => some (.evict t)
    | .accepting .. => some (.letIn t)
    | _ => none
  | .resume t =>
    match (k.state.tasks t).pc with
    | .accepting .. => some (.moveIn t)
    | _ => none
  | _ => none

/-- The task of a call that has not failed. -/
inductive OfCall (c : String) (t : ℕ) : Task → Prop
  | superseding (old : Socket) (inbox : Option Reply) : OfCall c t ⟨.superseding c t old, inbox⟩
  | accepting : OfCall c t ⟨.accepting c t, none⟩
  | accepted : OfCall c t ⟨.accepting c t, some .done⟩
  | registering : OfCall c t ⟨.registering c t, none⟩
  | registered : OfCall c t ⟨.registering c t, some .done⟩
  | receiving : OfCall c t ⟨.receiving c t, none⟩

structure Coherent (c : String) (k : Connects) : Prop where
  calls : ∀ t, k.IsCall t → OfCall c t (k.state.tasks t)
  first_le : k.first ≤ k.state.created
  accepted_lt : ∀ w ∈ k.accepted, w < k.state.created

section Steps

variable {c : String} {k k' : Connects} {a : Action}

theorem step_eq (h : step c k a = some k') : k.allows c a = true ∧
    ∃ s, Gateway.step k.state a = some s ∧ k' = ⟨s, k.first, k.accepted ++ (k.accepts a).toList,
      k.closed ++ (k.closes a).toList⟩ := by
  rw [step, Option.ite_none_right_eq_some] at h
  obtain ⟨hallows, h⟩ := h
  obtain ⟨s, hs, rfl⟩ := Option.map_eq_some_iff.mp h
  exact ⟨hallows, s, hs, rfl⟩

/-- A call begins. -/
theorem Coherent.spawn (hk : Coherent c k) {s : State} (htasks : s.tasks = k.state.tasks)
    (hcreated : s.created = k.state.created) {pc : Pc} (hpc : OfCall c k.state.created ⟨pc, none⟩) :
    Coherent c ⟨s.spawn pc, k.first, k.accepted, k.closed⟩ := by
  refine ⟨fun t ht => ?_, ?_, fun w hw => ?_⟩
  · simp only [State.spawn, State.goto, hcreated, htasks, Function.update_apply]
    split
    · next heq => exact heq ▸ hpc
    · next hne =>
      have hlt : t < k.state.created + 1 := hcreated ▸ ht.2
      exact hk.calls t ⟨ht.1, by omega⟩
  · have hle := hk.first_le
    simp only [State.spawn, hcreated]
    omega
  · simp only [State.spawn, hcreated]
    exact Nat.lt_succ_of_lt (hk.accepted_lt w hw)

theorem Coherent.slot_spawn (hk : Coherent c k) {s : State} (htasks : s.tasks = k.state.tasks)
    (hcreated : s.created = k.state.created) (pc : Pc) :
    slot c ⟨s.spawn pc, k.first, k.accepted, k.closed⟩ =
      { (slot c k).setPhase k.state.created (phaseOf ⟨pc, none⟩) with
        entry := s.connections.lookup c } := by
  refine Handover.Slot.ext rfl (funext fun t => ?_) rfl rfl
  have hle := hk.first_le
  have hcall : IsCall ⟨s.spawn pc, k.first, k.accepted, k.closed⟩ t ↔
      k.IsCall t ∨ t = k.state.created := by
    simp only [IsCall, State.spawn, hcreated]
    omega
  simp only [slot, Handover.Slot.setPhase, hcall]
  simp only [State.spawn, State.goto, hcreated, htasks, Function.update_apply]
  by_cases ht : t = k.state.created
  · simp only [ht, or_true, if_true]
  · simp only [ht, or_false, if_false]

/-- The task of a call gets a reply, or goes on. -/
theorem Coherent.goto (hk : Coherent c k) {t : ℕ} {s : State} {task : Task} {closed : List Socket}
    {o : Option Socket} (htasks : s.tasks = Function.update k.state.tasks t task)
    (hcreated : s.created = k.state.created) (htask : OfCall c t task) (ho : ∀ w ∈ o, w = t)
    (ht : k.IsCall t) : Coherent c ⟨s, k.first, k.accepted ++ o.toList, closed⟩ := by
  refine ⟨fun u hu => ?_, ?_, fun w hw => ?_⟩
  · simp only [htasks, Function.update_apply]
    split
    · next heq => exact heq ▸ htask
    · exact hk.calls u ⟨hu.1, hcreated ▸ hu.2⟩
  · simp only [hcreated]
    exact hk.first_le
  · simp only [hcreated]
    obtain hw | hw := List.mem_append.mp hw
    · exact hk.accepted_lt w hw
    · exact ho w (Option.mem_toList.mp hw) ▸ ht.2

theorem slot_goto {t : ℕ} {s : State} {task : Task} {closed : List Socket} {o : Option Socket}
    (htasks : s.tasks = Function.update k.state.tasks t task)
    (hcreated : s.created = k.state.created) (ho : ∀ w ∈ o, w = t) (ht : k.IsCall t) :
    slot c ⟨s, k.first, k.accepted ++ o.toList, closed⟩ =
      { (slot c k).setPhase t (phaseOf task) with
        entry := s.connections.lookup c
        admitted := k.accepted ++ o.toList
        evicted := closed } := by
  refine Handover.Slot.ext rfl (funext fun u => ?_) rfl rfl
  have hcall : IsCall ⟨s, k.first, k.accepted ++ o.toList, closed⟩ u ↔ k.IsCall u := by
    simp only [IsCall, hcreated]
  simp only [slot, Handover.Slot.setPhase, hcall, htasks, Function.update_apply]
  by_cases hu : u = t
  · simp only [hu, if_pos ht, if_true]
  · have hmem : u ∈ k.accepted ++ o.toList ↔ u ∈ k.accepted := by
      simp only [List.mem_append, Option.mem_toList, or_iff_left_iff_imp]
      exact fun hw => absurd (ho u hw) hu
    simp only [if_neg hu, hmem]

/-- What is recorded of a step. -/
def record (k : Connects) (a : Action) (s : State) : Connects :=
  ⟨s, k.first, k.accepted ++ (k.accepts a).toList, k.closed ++ (k.closes a).toList⟩

/-- A step as it is seen in the slot. -/
def Moves (c : String) (k : Connects) (a : Action) (k' : Connects) : Prop :=
  match k.move a with
  | some m => Handover.step (k.slot c) m = some (k'.slot c)
  | none => k'.slot c = k.slot c

theorem Coherent.connect_simulates (hk : Coherent c k) :
    Coherent c (k.record (.connect c) (k.state.connect c)) ∧
      Moves c k (.connect c) (k.record (.connect c) (k.state.connect c)) := by
  have haway : (k.slot c).phase k.state.created = .away := by
    have hcall : ¬k.IsCall k.state.created := fun hc => Nat.lt_irrefl _ hc.2
    have hold : k.state.created ∉ k.accepted := fun hw => Nat.lt_irrefl _ (hk.accepted_lt _ hw)
    simp only [slot, if_neg hcall, if_neg hold]
  simp only [record, Moves, accepts, closes, Option.toList_none, List.append_nil, move]
  rw [State.connect]
  split
  · next hnone =>
    refine ⟨hk.spawn rfl rfl .accepting, Handover.step_come.mpr ⟨haway, Or.inl ⟨hnone, ?_⟩⟩⟩
    rw [hk.slot_spawn rfl rfl]
    rfl
  · next existing hsome =>
    have htasks : ((k.state.supersede c).forget c).tasks = k.state.tasks := rfl
    refine ⟨hk.spawn htasks rfl (.superseding existing none),
      Handover.step_come.mpr ⟨haway, Or.inr ⟨existing, hsome, ?_⟩⟩⟩
    rw [hk.slot_spawn htasks rfl]
    exact Handover.Slot.ext (AList.lookup_erase _ _) rfl rfl rfl

theorem Coherent.answer_simulates (hk : Coherent c k) {t : ℕ} {r : Reply} {s : State}
    (hallows : k.allows c (.answer t r) = true) (hs : Gateway.step k.state (.answer t r) = some s) :
    Coherent c (k.record (.answer t r) s) ∧
      Moves c k (.answer t r) (k.record (.answer t r) s) := by
  obtain ⟨⟨hinbox, -⟩, hs⟩ := answer_eq_some_iff.mp hs
  have htables := sameTables_settle k.state (k.state.tasks t).pc r
  have hcall : k.IsCall t := by
    simp only [allows, Bool.and_eq_true, decide_eq_true_eq] at hallows
    exact hallows.1
  have htask := hk.calls t hcall
  have hphase : (k.slot c).phase t = phaseOf (k.state.tasks t) := if_pos hcall
  rcases htask' : k.state.tasks t with ⟨pc, inbox⟩
  rw [htask'] at htask hinbox hphase hs htables
  simp only [allows, htask', Bool.and_eq_true] at hallows
  have hentry : s.connections.lookup c = k.state.connections.lookup c := by
    rw [hs]
    exact congrArg _ htables.connections
  have htasks : s.tasks = Function.update k.state.tasks t
      ⟨pc, some (k.state.reply pc r)⟩ := by rw [hs]
  have hcreated : s.created = k.state.created := by rw [hs]; exact htables.created
  simp only [record, Moves, accepts, closes, move, htask']
  cases htask with
  | superseding old inbox =>
    obtain rfl : inbox = none := hinbox
    refine ⟨hk.goto htasks hcreated (.superseding old _) (by simp) hcall,
      Handover.step_evict.mpr ⟨old, hphase, ?_⟩⟩
    rw [slot_goto htasks hcreated (by simp) hcall]
    exact Handover.Slot.ext hentry rfl (List.append_nil _) rfl
  | accepting =>
    obtain rfl : r = .done := by cases r <;> simp at hallows ⊢
    refine ⟨hk.goto htasks hcreated .accepted (by simp) hcall,
      Handover.step_letIn.mpr ⟨hphase, ?_⟩⟩
    rw [slot_goto htasks hcreated (by simp) hcall]
    exact Handover.Slot.ext hentry rfl rfl (List.append_nil _)
  | registering =>
    obtain rfl : r = .done := by cases r <;> simp at hallows ⊢
    refine ⟨hk.goto htasks hcreated .registered (by simp) hcall, ?_⟩
    rw [slot_goto htasks hcreated (by simp) hcall]
    refine Handover.Slot.ext hentry ?_ (List.append_nil _) (List.append_nil _)
    exact (congrArg _ hphase.symm).trans (Function.update_eq_self _ _)
  | accepted | registered => exact absurd hinbox (Option.some_ne_none _)
  | receiving => simp at hallows

theorem Coherent.resume_simulates (hk : Coherent c k) {t : ℕ} {s : State} (hcall : k.IsCall t)
    (hs : Gateway.step k.state (.resume t) = some s) :
    Coherent c (k.record (.resume t) s) ∧ Moves c k (.resume t) (k.record (.resume t) s) := by
  obtain ⟨r, hr, rfl⟩ := Option.map_eq_some_iff.mp hs
  have htask := hk.calls t hcall
  have hphase : (k.slot c).phase t = phaseOf (k.state.tasks t) := if_pos hcall
  rcases htask' : k.state.tasks t with ⟨pc, inbox⟩
  rw [htask'] at htask hphase
  simp only [State.wakes, htask'] at hr
  simp only [record, Moves, accepts, closes, move, htask']
  cases htask with
  | superseding old inbox =>
    obtain rfl : inbox = some r := hr
    have hslot : slot c ⟨k.state.goto t (.accepting c t), k.first,
        k.accepted ++ Option.toList none, k.closed ++ []⟩ = _ := slot_goto rfl rfl (by simp) hcall
    refine ⟨hk.goto rfl rfl .accepting (by simp) hcall, hslot.trans ?_⟩
    refine Handover.Slot.ext rfl ?_ (List.append_nil _) (List.append_nil _)
    exact (congrArg _ hphase.symm).trans (Function.update_eq_self _ _)
  | accepted =>
    obtain rfl : .done = r := Option.some.inj hr
    have hslot : slot c ⟨(k.state.store c t).goto t (.registering c t), k.first,
        k.accepted ++ Option.toList none, k.closed ++ []⟩ = _ := slot_goto rfl rfl (by simp) hcall
    refine ⟨hk.goto rfl rfl .registering (by simp) hcall,
      Handover.step_moveIn.mpr ⟨hphase, hslot.trans ?_⟩⟩
    refine Handover.Slot.ext ?_ rfl (List.append_nil _) (List.append_nil _)
    exact (lookup_setItem ..).trans (if_pos rfl)
  | registered =>
    obtain rfl : .done = r := Option.some.inj hr
    have hslot : slot c ⟨k.state.goto t (.receiving c t), k.first,
        k.accepted ++ Option.toList none, k.closed ++ []⟩ = _ := slot_goto rfl rfl (by simp) hcall
    refine ⟨hk.goto rfl rfl .receiving (by simp) hcall, hslot.trans ?_⟩
    refine Handover.Slot.ext rfl ?_ (List.append_nil _) (List.append_nil _)
    exact (congrArg _ hphase.symm).trans (Function.update_eq_self _ _)
  | accepting | registering | receiving => exact absurd hr.symm (Option.some_ne_none _)

/-- **The simulation.** A step of the calls is a move of a newcomer, or changes nothing in the
slot. -/
theorem step_simulates (hk : Coherent c k) (h : step c k a = some k') :
    Coherent c k' ∧ Moves c k a k' := by
  obtain ⟨hallows, s, hs, rfl⟩ := step_eq h
  cases a with
  | connect c' =>
    obtain rfl : c' = c := by simpa [allows] using hallows
    obtain rfl := Option.some.inj hs
    exact hk.connect_simulates
  | sendMessage c' => simp [allows] at hallows
  | answer t r => exact hk.answer_simulates hallows hs
  | resume t =>
    have hcall : k.IsCall t := by simpa only [allows, decide_eq_true_eq] using hallows
    exact hk.resume_simulates hcall hs
  | clock now | expire c' | track tracker =>
    obtain rfl := Option.some.inj hs
    simp only [Moves, accepts, closes, Option.toList_none, List.append_nil, move]
    exact ⟨⟨hk.calls, hk.first_le, hk.accepted_lt⟩, rfl⟩

/-- The guard, of the move. -/
theorem storesInVacancy_iff :
    StoresInVacancy c k a ↔ ∀ m, k.move a = some m → Handover.Vacant (k.slot c) m := by
  cases a with
  | connect c' => simp [StoresInVacancy, move, Handover.Vacant]
  | answer t r =>
    refine iff_of_true trivial fun m hm => ?_
    simp only [move] at hm
    split at hm
    · exact Option.some.inj hm ▸ trivial
    · exact Option.some.inj hm ▸ trivial
    · cases hm
  | resume t =>
    simp only [StoresInVacancy, move]
    cases (k.state.tasks t).pc <;> simp [Pc.isAccepting, Handover.Vacant, slot]
  | _ => exact iff_of_true trivial fun m hm => by cases hm

/-- What every run preserves. -/
structure Followed (c : String) (k : Connects) : Prop where
  coherent : Coherent c k
  tracked : Handover.Tracked (k.slot c)

theorem Followed.step (hk : Followed c k) (h : step c k a = some k') : Followed c k' := by
  obtain ⟨hcoherent, hmove⟩ := step_simulates hk.coherent h
  refine ⟨hcoherent, ?_⟩
  rw [Moves] at hmove
  cases hm : k.move a with
  | some m =>
    rw [hm] at hmove
    exact hk.tracked.step hmove
  | none =>
    rw [hm] at hmove
    exact hmove ▸ hk.tracked

/-- **One step** strands a socket exactly if it stores another one in its place. -/
theorem Followed.accounted_step (hk : Followed c k) (h : Connects.step c k a = some k') :
    Handover.Accounted (k'.slot c) ↔ Handover.Accounted (k.slot c) ∧ StoresInVacancy c k a := by
  have hmove := (step_simulates hk.coherent h).2
  rw [Moves] at hmove
  rw [storesInVacancy_iff]
  cases hm : k.move a with
  | some m =>
    rw [hm] at hmove
    simpa using hk.tracked.accounted_step hmove
  | none =>
    rw [hm] at hmove
    simp [hmove]

theorem followed_start {s : State} (hs : s.Uses (· < s.created)) (c : String) :
    Followed c (start c s) ∧ Handover.Accounted ((start c s).slot c) := by
  have hcall : ∀ t, ¬(start c s).IsCall t :=
    fun t ht => Nat.lt_irrefl _ (Nat.lt_of_le_of_lt ht.1 ht.2)
  have hphase : ∀ t, ((start c s).slot c).phase t =
      if s.connections.lookup c = some t then .inside else .away := by
    intro t
    simp only [slot, if_neg (hcall t)]
    simp [start]
  refine ⟨⟨⟨fun t ht => absurd ht (hcall t), Nat.le_refl _, fun w hw => ?_⟩, ?_⟩, fun w hw => ?_⟩
  · exact hs.connections c w (Option.mem_toList.mp hw)
  · constructor
    · intro n x hx
      rw [hphase] at hx
      split at hx <;> cases hx
    · exact fun x hx => absurd hx List.not_mem_nil
    · intro x
      rw [hphase]
      split <;> simp_all [slot, start]
    · intro x hx
      rw [hphase]
      exact if_pos hx
    · intro x hx
      refine ⟨List.not_mem_nil, fun n hn => ?_⟩
      rw [hphase] at hn
      split at hn <;> cases hn
    · intro hnone
      refine Or.inl fun n => ?_
      rw [hphase]
      exact if_neg (by rw [show s.connections.lookup c = none from hnone]; simp)
  · exact Or.inr (Or.inr (Or.inl (Option.mem_toList.mp hw)))

theorem Coherent.phase_of_returned (hk : Coherent c k) (h : Returned k) {t : ℕ} (ht : k.IsCall t) :
    (k.slot c).phase t = .inside := by
  refine (if_pos ht).trans ?_
  have htask := hk.calls t ht
  have hpc := h.2 t ht.2 ht.1
  cases htask' : k.state.tasks t
  rw [htask'] at htask hpc
  cases htask with
  | receiving => rfl
  | _ => cases hpc

/-- **Concurrent connects, exactly.** When all calls for a conversation have returned, exactly one
socket is open, and in `connections`, if and only if each of them has found no entry where it
stored its own. -/
theorem oneOpen_iff {s : State} (hs : Transition.Reachable Gateway.step (· = .start) s)
    {as : List Action} (hrun : Transition.run (step c) (start c s) as = some k)
    (hreturned : Returned k) :
    OneOpen c k ↔ Transition.Guarded (step c) (StoresInVacancy c) (start c s) as := by
  obtain ⟨hstart, hacc⟩ := followed_start (uses_of_reachable hs) c
  have hk : Followed c k := (Transition.always_of_invariant (fun _ _ _ h hs => h.step hs) hstart
    as).run hrun
  have hsettled : Handover.Settled (k.slot c) := by
    intro t
    by_cases ht : k.IsCall t
    · exact Or.inr (hk.coherent.phase_of_returned hreturned ht)
    · obtain hin | hout := Decidable.em (t ∈ k.accepted)
      · exact Or.inr ((if_neg ht).trans (if_pos hin))
      · exact Or.inl ((if_neg ht).trans (if_neg hout))
  have hcame : ∃ t, (k.slot c).phase t ≠ .away := by
    refine ⟨k.first, fun haway => ?_⟩
    rw [hk.coherent.phase_of_returned hreturned ⟨Nat.le_refl _, hreturned.1⟩] at haway
    cases haway
  have hsole : OneOpen c k ↔ Handover.Accounted (k.slot c) := hk.tracked.sole_iff hsettled hcame
  rw [hsole, Transition.end_iff_guarded (fun _ _ _ h hs => Followed.step h hs)
    (fun _ _ _ h hs => h.accounted_step hs) hstart hrun, and_iff_right hacc]

end Steps

/-- The second call begins when the first one has returned. -/
def oneByOne : List Action :=
  [.connect "conv-1", .answer 1 .done, .resume 1, .answer 1 .done, .resume 1,
    .connect "conv-1", .answer 2 .raised, .resume 2, .answer 2 .done, .resume 2, .answer 2 .done,
    .resume 2]

theorem oneOpen_one_by_one : ∃ k,
    Transition.run (step "conv-1") (start "conv-1" .start) oneByOne = some k ∧
      OneOpen "conv-1" k := by
  have hreturns : ((Transition.run (step "conv-1") (start "conv-1" .start) oneByOne).map
      fun k => decide (Returned k)) = some true := by decide +kernel
  obtain ⟨k, hrun, hreturned⟩ := Option.map_eq_some_iff.mp hreturns
  exact ⟨k, hrun, (oneOpen_iff (.start rfl) hrun (of_decide_eq_true hreturned)).mpr
    (by decide +kernel)⟩

/-- Both calls look before either of them stores. -/
def overlapping : List Action :=
  [.connect "conv-1", .connect "conv-1", .answer 1 .done, .resume 1, .answer 2 .done, .resume 2,
    .answer 1 .done, .resume 1, .answer 2 .done, .resume 2]

/-- Socket 1 loses its entry and stays open. -/
theorem not_oneOpen : ¬∀ (c : String) (s : State) (as : List Action) (k : Connects),
    Transition.Reachable Gateway.step (· = .start) s →
      Transition.run (step c) (start c s) as = some k → Returned k → OneOpen c k := by
  intro h
  have hend : ((Transition.run (step "conv-1") (start "conv-1" .start) overlapping).map fun k =>
      (decide (Returned k), k.accepted, k.closed, k.state.connections.lookup "conv-1")) =
        some (true, [1, 2], [], some 2) := by decide +kernel
  obtain ⟨k, hrun, hk⟩ := Option.map_eq_some_iff.mp hend
  obtain ⟨hreturned, haccepted, hclosed, hentry⟩ : decide (Returned k) = true ∧
      k.accepted = [1, 2] ∧ k.closed = [] ∧ k.state.connections.lookup "conv-1" = some 2 := by
    simpa only [Prod.mk.injEq] using hk
  have hopen := h "conv-1" .start overlapping k (.start rfl) hrun (of_decide_eq_true hreturned)
  have hstranded := (hopen.2 1).mp ⟨by simp [haccepted], by simp [hclosed]⟩
  exact absurd (hentry.symm.trans hstranded) (by decide)

end Connects

end Gateway

end TitanChat
