import TitanChat.AgentRouter
import TitanChat.Internal.Transition

/-!
# The two copies of an agent's load

Sequences of router operations, each run to its end before the next one begins. Two laws are
studied: the score of an available agent is the number of chats in its set, and the sets are the
inverse of `chat:active`. Neither is an invariant of the operations. Both have an exact guard: a
condition on the keys before the operation under which it keeps the law, and without which it
breaks the law at once. So each law holds throughout a run if and only if every operation of the
run met its guard.

## Main definitions

* `Op`, `perform`: the operations
* `LoadExact`, `LoadSafe`: the first law and its guard
* `HeldByOne`, `ReleaseClears`: the second law, and what it says after a release
* `RoutesToHolder`, `ReleasesNamed`: their guards

## Main results

* `load_exact_iff`, `held_by_one_iff`: the two exact statements
-/

namespace TitanChat

namespace Router

/-- One operation of the router. -/
inductive Op where
  | agentGoOnline (agent_id : String) (max_chats : ℤ) (skills : List String)
  | agentHeartbeat (agent_id : String)
  | expireStatus (agent_id : String)
  | agentGoOffline (agent_id : String)
  | routeToAgent (conversation_id required_skill : String)
  | releaseAgentSlot (conversation_id : String)

section Ops

variable (find : String → String → Option Bool)

/-- The keys after an operation. -/
def perform (r : Router) : Op → Router
  | .agentGoOnline a max_chats skills => r.agentGoOnline a max_chats skills
  | .agentHeartbeat a => r.agentHeartbeat a
  | .expireStatus a => r.expireStatus a
  | .agentGoOffline a => r.agentGoOffline a
  | .routeToAgent c required_skill => (r.routeLua find c required_skill).2
  | .releaseAgentSlot c => r.releaseAgentSlot c

/-- Every operation is possible in every state. -/
def step (r : Router) (op : Op) : Option Router := some (r.perform find op)

/-! ### The score is the number of chats -/

/-- Every member of `agent:available` has the size of its `agent:chats` set as its score. -/
def LoadExact (r : Router) : Prop :=
  ∀ a n, r.available.lookup a = some n → n = (r.chats a).card

/-- The guard of `LoadExact`: an agent goes online with no chats, a conversation is routed to an
agent that does not hold it yet, and a released conversation is in the set of an available agent.
-/
def LoadSafe (r : Router) : Op → Prop
  | .agentGoOnline a _ _ => r.chats a = ∅
  | .routeToAgent c required_skill =>
    ∀ a, r.leastLoaded find required_skill = some a → c ∉ r.chats a
  | .releaseAgentSlot c =>
    ∀ a, r.releaseRead c = some a → a ∈ r.available ∧ c ∈ r.chats a
  | _ => True

theorem LoadExact.pruneAll {r : Router} (h : r.LoadExact) (agents : List String) :
    (r.pruneAll agents).LoadExact := by
  intro a n ha
  rw [lookup_pruneAll] at ha
  split at ha
  · exact absurd ha (by simp)
  · exact h a n ha

theorem loadExact_agentGoOnline_iff {r : Router} (h : r.LoadExact) (a : String) (m : ℤ)
    (skills : List String) : (r.agentGoOnline a m skills).LoadExact ↔ r.chats a = ∅ := by
  constructor
  · intro h'
    have hcard : (0 : ℤ) = (r.chats a).card := h' a 0 (AList.lookup_insert _)
    exact Finset.card_eq_zero.mp (by omega)
  · intro he b n hb
    by_cases hba : b = a
    · subst hba
      have hn : n = 0 := by simpa [agentGoOnline, eq_comm] using hb
      simp [agentGoOnline, he, hn]
    · exact h b n (by simpa [agentGoOnline, AList.lookup_insert_ne hba] using hb)

theorem LoadExact.agentGoOffline {r : Router} (h : r.LoadExact) (a : String) :
    (r.agentGoOffline a).LoadExact := by
  intro b n hb
  by_cases hba : b = a
  · subst hba; simp [Router.agentGoOffline] at hb
  · exact h b n (by simpa [Router.agentGoOffline, AList.lookup_erase_ne hba] using hb)

/-- An assignment moves score and set together exactly when the conversation is new to the set. -/
theorem loadExact_assign_iff {r : Router} (h : r.LoadExact) {a : String} {n : ℤ}
    (ha : r.available.lookup a = some n) (c : String) :
    (r.assign a c).LoadExact ↔ c ∉ r.chats a := by
  have hn : n = (r.chats a).card := h a n ha
  constructor
  · intro h' hc
    have hcard : n + 1 = ((insert c (r.chats a)).card : ℤ) := by
      simpa [Router.assign, ha] using h' a (n + 1) (by simp [Router.assign, ha])
    rw [Finset.insert_eq_of_mem hc] at hcard
    omega
  · intro hc b m hb
    by_cases hba : b = a
    · subst hba
      have hm : m = n + 1 := by simpa [Router.assign, ha, eq_comm] using hb
      simp only [Router.assign, Function.update_self, Finset.card_insert_of_notMem hc]
      push_cast
      omega
    · have hb' : r.available.lookup b = some m := by
        simpa [Router.assign, SortedSet.lookup_incrBy_ne _ _ hba] using hb
      simpa [Router.assign, Function.update_of_ne hba] using h b m hb'

theorem loadExact_routeLua_iff {r : Router} (h : r.LoadExact) (c required_skill : String) :
    (r.routeLua find c required_skill).2.LoadExact ↔
      ∀ a, r.leastLoaded find required_skill = some a → c ∉ r.chats a := by
  obtain ⟨agents, hgone, ⟨hnone, hr, -⟩ | ⟨a, n, hsome, ha, -, -, hon, hr⟩⟩ :=
    r.routeLua_cases find c required_skill
  · rw [hr, hnone]
    exact iff_of_true (h.pruneAll agents) (by simp)
  · have hmem : a ∉ agents := fun hin => hgone a hin hon
    have ha' : (r.pruneAll agents).available.lookup a = some n := by
      rw [lookup_pruneAll, if_neg hmem, ha]
    rw [hr, hsome, loadExact_assign_iff (h.pruneAll agents) ha' c]
    simp [Router.pruneAll]

/-- A release moves score and set together exactly when the agent is still available, so that no
member is created with score `-1`, and the conversation is in its set. -/
theorem loadExact_releaseExec_iff {r : Router} (h : r.LoadExact) (a c : String) :
    (r.releaseExec a c).LoadExact ↔ a ∈ r.available ∧ c ∈ r.chats a := by
  have hself : (r.releaseExec a c).available.lookup a =
      some ((r.available.lookup a).getD 0 - 1) := SortedSet.lookup_incrBy_self _ _ _
  constructor
  · intro h'
    have hcard : (r.available.lookup a).getD 0 - 1 = (((r.chats a).erase c).card : ℤ) := by
      simpa [releaseExec] using h' a _ hself
    cases hl : r.available.lookup a with
    | none => rw [hl] at hcard; simp only [Option.getD_none] at hcard; omega
    | some n =>
      refine ⟨AList.lookup_isSome.mp (by rw [hl]; rfl), ?_⟩
      by_contra hc
      rw [hl, Finset.erase_eq_of_notMem hc, Option.getD_some, h a n hl] at hcard
      omega
  · rintro ⟨hmem, hc⟩ b m hb
    obtain ⟨n, hl⟩ := Option.isSome_iff_exists.mp (AList.lookup_isSome.mpr hmem)
    by_cases hba : b = a
    · subst hba
      rw [hself, hl, Option.getD_some, Option.some.injEq] at hb
      have hpos : 0 < (r.chats b).card := Finset.card_pos.mpr ⟨c, hc⟩
      have hn := h b n hl
      simp only [releaseExec, Function.update_self, Finset.card_erase_of_mem hc]
      omega
    · have hb' : r.available.lookup b = some m := by
        simpa [releaseExec, SortedSet.lookup_incrBy_ne _ _ hba] using hb
      simpa [releaseExec, Function.update_of_ne hba] using h b m hb'

theorem loadExact_releaseAgentSlot_iff {r : Router} (h : r.LoadExact) (c : String) :
    (r.releaseAgentSlot c).LoadExact ↔
      ∀ a, r.releaseRead c = some a → a ∈ r.available ∧ c ∈ r.chats a := by
  cases hread : r.releaseRead c with
  | none => rw [releaseAgentSlot_of_none hread]; exact iff_of_true h (by simp)
  | some a => rw [releaseAgentSlot_of_some hread, loadExact_releaseExec_iff h]; simp

/-- **One operation keeps the law exactly when it meets the guard.** -/
theorem loadExact_perform_iff {r : Router} (h : r.LoadExact) (op : Op) :
    (r.perform find op).LoadExact ↔ r.LoadSafe find op := by
  cases op with
  | agentGoOnline a m skills => exact loadExact_agentGoOnline_iff h a m skills
  | agentHeartbeat a => exact iff_of_true h trivial
  | expireStatus a => exact iff_of_true h trivial
  | agentGoOffline a => exact iff_of_true (h.agentGoOffline a) trivial
  | routeToAgent c required_skill => exact loadExact_routeLua_iff find h c required_skill
  | releaseAgentSlot c => exact loadExact_releaseAgentSlot_iff h c

theorem loadExact_empty : empty.LoadExact := by
  intro a n ha
  simp [empty] at ha

/-- **Load accounting, exactly.** From the empty store, the score of every available agent is its
number of chats throughout a run if and only if every operation of the run met the guard. -/
theorem load_exact_iff (ops : List Op) :
    Transition.Always (step find) LoadExact empty ops ↔
      Transition.Guarded (step find) (LoadSafe find) empty ops := by
  refine Transition.always_iff_guarded (K := fun _ => True) (fun _ _ _ _ _ => trivial) ?_ trivial
    loadExact_empty
  intro r op r' _ h hr
  obtain rfl : r.perform find op = r' := Option.some.inj hr
  exact loadExact_perform_iff find h op

/-! ### The sets are the inverse of the assignment -/

/-- A conversation is in the set of the agent that `chat:active` names, and in no other. -/
def HeldByOne (r : Router) : Prop := ∀ c a, c ∈ r.chats a ↔ r.holder c = some a

/-- After a release no set contains the conversation. -/
def ReleaseClears (r : Router) : Op → Prop
  | .releaseAgentSlot c => ∀ a, c ∉ (r.releaseAgentSlot c).chats a
  | _ => True

/-- The guard on routing: a conversation that is held is routed to the agent that holds it, or to
nobody. -/
def RoutesToHolder (r : Router) : Op → Prop
  | .routeToAgent c required_skill =>
    ∀ a, r.leastLoaded find required_skill = some a → ∀ b, r.holder c = some b → b = a
  | _ => True

/-- The guard on releasing: the assignment does not name the empty agent id, which
`release_agent_slot` takes for none. -/
def ReleasesNamed (r : Router) : Op → Prop
  | .releaseAgentSlot c => r.holder c ≠ some ""
  | _ => True

theorem heldByOne_assign_iff {r : Router} (h : r.HeldByOne) (a c : String) :
    (r.assign a c).HeldByOne ↔ ∀ b, r.holder c = some b → b = a := by
  constructor
  · intro h' b hb
    by_contra hba
    have hmem : c ∈ (r.assign a c).chats b := by
      simpa [Router.assign, Function.update_of_ne hba] using (h c b).mpr hb
    have hholder : some a = some b := by
      simpa [holder, Router.assign] using (h' c b).mp hmem
    exact hba (Option.some.inj hholder).symm
  · intro hc d b
    have hset : d ∈ (r.assign a c).chats b ↔ (b = a ∧ d = c) ∨ d ∈ r.chats b := by
      by_cases hba : b = a
      · subst hba; simp [Router.assign]
      · simp [Router.assign, hba]
    rw [hset, h d b]
    by_cases hdc : d = c
    · subst hdc
      simp only [holder, Router.assign, Function.update_self, Option.map_some, Option.some.injEq,
        and_true]
      exact ⟨fun hor => hor.elim Eq.symm fun hb => (hc b hb).symm, fun hab => Or.inl hab.symm⟩
    · simp [holder, Router.assign, hdc]

theorem HeldByOne.releaseExec {r : Router} (h : r.HeldByOne) {a c : String}
    (ha : r.holder c = some a) : (r.releaseExec a c).HeldByOne := by
  intro d b
  have hset : d ∈ (r.releaseExec a c).chats b ↔ ¬(b = a ∧ d = c) ∧ d ∈ r.chats b := by
    by_cases hba : b = a
    · subst hba; simp [Router.releaseExec]
    · simp [Router.releaseExec, hba]
  rw [hset, h d b]
  by_cases hdc : d = c
  · subst hdc
    simp only [holder, Router.releaseExec, Function.update_self, Option.map_none, reduceCtorEq,
      iff_false, not_and, and_true]
    intro hba hb
    rw [← holder, ha] at hb
    exact hba (Option.some.inj hb).symm
  · simp [holder, Router.releaseExec, hdc]

theorem heldByOne_perform_iff {r : Router} (h : r.HeldByOne) (op : Op) :
    (r.perform find op).HeldByOne ↔ r.RoutesToHolder find op := by
  cases op with
  | agentGoOnline a m skills => exact iff_of_true h trivial
  | agentHeartbeat a => exact iff_of_true h trivial
  | expireStatus a => exact iff_of_true h trivial
  | agentGoOffline a => exact iff_of_true h trivial
  | routeToAgent c required_skill =>
    obtain ⟨agents, -, ⟨hnone, hr, -⟩ | ⟨a, n, hsome, -, -, -, -, hr⟩⟩ :=
      r.routeLua_cases find c required_skill
    · simp only [perform, hr, RoutesToHolder, hnone]
      exact iff_of_true h (by simp)
    · simp only [perform, hr, RoutesToHolder, hsome, Option.some.injEq, forall_eq']
      exact heldByOne_assign_iff (r := r.pruneAll agents) h a c
  | releaseAgentSlot c =>
    refine iff_of_true ?_ trivial
    simp only [perform]
    cases hread : r.releaseRead c with
    | none => rw [releaseAgentSlot_of_none hread]; exact h
    | some a =>
      rw [releaseAgentSlot_of_some hread]
      exact h.releaseExec (releaseRead_eq_some.mp hread).2

/-- Under the law, a release clears the conversation unless it names the empty agent id. -/
theorem HeldByOne.releaseClears_iff {r : Router} (h : r.HeldByOne) (op : Op) :
    r.ReleaseClears op ↔ r.ReleasesNamed op := by
  cases op with
  | releaseAgentSlot c =>
    simp only [ReleaseClears, ReleasesNamed]
    cases hread : r.releaseRead c with
    | some a =>
      obtain ⟨hne, ha⟩ := releaseRead_eq_some.mp hread
      rw [releaseAgentSlot_of_some hread]
      refine iff_of_true (fun b hb => ?_) (by rw [ha]; simpa using hne)
      have hnone : (r.releaseExec a c).holder c = none := by simp [holder, Router.releaseExec]
      rw [(h.releaseExec ha) c b, hnone] at hb
      exact absurd hb (by simp)
    | none =>
      rw [releaseAgentSlot_of_none hread]
      constructor
      · exact fun hc he => hc "" ((h c "").mpr he)
      · intro hne a hc
        have ha := (h c a).mp hc
        have he : a = "" := by
          by_contra hne'
          rw [releaseRead_eq_some.mpr ⟨hne', ha⟩] at hread
          exact absurd hread (by simp)
        exact hne (he ▸ ha)
  | _ => exact Iff.rfl

theorem heldByOne_empty : empty.HeldByOne := by
  intro c a
  simp [empty, holder]

/-- **One holder, exactly.** From the empty store, the sets are the inverse of the assignment
throughout a run and every release clears its conversation, if and only if every routing of a held
conversation goes to its holder or to nobody and no release meets the empty agent id. -/
theorem held_by_one_iff (ops : List Op) :
    (Transition.Always (step find) HeldByOne empty ops ∧
        Transition.Guarded (step find) ReleaseClears empty ops) ↔
      Transition.Guarded (step find)
        (fun r op => r.RoutesToHolder find op ∧ r.ReleasesNamed op) empty ops := by
  have hlaw : Transition.Always (step find) HeldByOne empty ops ↔
      Transition.Guarded (step find) (RoutesToHolder find) empty ops := by
    refine Transition.always_iff_guarded (K := fun _ => True) (fun _ _ _ _ _ => trivial) ?_
      trivial heldByOne_empty
    intro r op r' _ h hr
    obtain rfl : r.perform find op = r' := Option.some.inj hr
    exact heldByOne_perform_iff find h op
  rw [Transition.guarded_and, ← hlaw]
  exact and_congr_right fun h => h.guarded_congr fun r op hr => hr.releaseClears_iff op

end Ops

/-- A second transfer leaves the conversation in the set of its first agent, even after the
release. -/
theorem not_held_by_one :
    ¬ ∀ (find : String → String → Option Bool) (ops : List Op),
      Transition.Always (step find) HeldByOne empty ops ∧
        Transition.Guarded (step find) ReleaseClears empty ops := by
  intro h
  have hrun := (h (fun _ _ => some true) [.agentGoOnline "agent-1" 5 [],
    .agentGoOnline "agent-2" 5 [], .routeToAgent "conv-1" "", .routeToAgent "conv-1" "",
    .releaseAgentSlot "conv-1"]).1.run rfl
  have hmem := (hrun "conv-1" "agent-1").mp (by decide)
  exact absurd hmem (by decide)

/-- An agent that goes online again while it holds a chat is counted as idle. -/
theorem load_not_exact :
    ¬ ∀ (find : String → String → Option Bool) (ops : List Op),
      Transition.Always (step find) LoadExact empty ops := by
  intro h
  have hrun := (h (fun _ _ => some true) [.agentGoOnline "agent-1" 5 [],
    .routeToAgent "conv-1" "", .agentGoOnline "agent-1" 5 []]).run rfl
  have hcard := hrun "agent-1" 0 (by decide)
  exact absurd hcard (by decide)

end Router

end TitanChat
