import TitanChat.AgentRouter
import TitanChat.Internal.Transition

/-!
# No agent is over-assigned

Router operations of any number of processes, interleaved at Redis steps. The routing script is one
step; a release is two, and anything may come between its `HGET` and its pipeline, except a second
release of the same conversation, which the worker of that conversation rules out. An agent goes
online once, which is when its `max_chats` is first stored.

## Why it holds

The score of an agent is not its load: routing a conversation twice to the same agent counts it
twice, and a release recreates a pruned member with a negative score. Both errors are on the safe
side. The invariant says so: as long as the score is not negative it bounds the set from above, and
once it is negative the script never looks at the agent again. What keeps a release from lowering
the score alone is that the conversation it removes is in the set of the agent it read, also when
the assignment has moved on in the meantime.

## Main results

* `CapacityInv`, `capacityInv_step`: the invariant
* `chats_within_capacity`: no set ever exceeds its agent's `max_chats`
-/

namespace TitanChat

namespace Router

/-- The keys, and for each conversation the agent that a release under way has read. -/
structure Shared where
  router : Router
  releasing : String → Option String

/-- One Redis step of one of the processes. -/
inductive Act where
  | agentGoOnline (agent_id : String) (max_chats : ℤ) (skills : List String)
  | agentHeartbeat (agent_id : String)
  | expireStatus (agent_id : String)
  | agentGoOffline (agent_id : String)
  | routeToAgent (conversation_id required_skill : String)
  | releaseRead (conversation_id : String)
  | releaseExec (conversation_id : String)

namespace Shared

/-- The empty store, with no release under way. -/
def start : Shared := { router := empty, releasing := fun _ => none }

variable (find : String → String → Option Bool)

/-- The state after a Redis step, where it is possible. -/
def step (s : Shared) : Act → Option Shared
  | .agentGoOnline a max_chats skills =>
    -- an agent goes online once: nothing else stores `max_chats`
    if s.router.maxChats a = none then
      some { s with router := s.router.agentGoOnline a max_chats skills }
    else none
  | .agentHeartbeat a => some { s with router := s.router.agentHeartbeat a }
  | .expireStatus a => some { s with router := s.router.expireStatus a }
  | .agentGoOffline a => some { s with router := s.router.agentGoOffline a }
  | .routeToAgent c required_skill =>
    some { s with router := (s.router.routeLua find c required_skill).2 }
  | .releaseRead c =>
    if s.releasing c = none then
      some { s with releasing := Function.update s.releasing c (s.router.releaseRead c) }
    else none
  | .releaseExec c =>
    (s.releasing c).map fun a =>
      { router := s.router.releaseExec a c, releasing := Function.update s.releasing c none }

/-- No set is larger than the `max_chats` of its agent. -/
def WithinCapacity (s : Shared) : Prop :=
  ∀ a m, s.router.maxChats a = some m → (s.router.chats a).card ≤ m.toNat

/-- What every step preserves. -/
structure CapacityInv (s : Shared) : Prop where
  /-- A score that is not negative bounds the set. -/
  load : ∀ a n, s.router.available.lookup a = some n → 0 ≤ n → ((s.router.chats a).card : ℤ) ≤ n
  within : s.WithinCapacity
  /-- An agent that has not been online holds nothing and is not available. -/
  fresh : ∀ a, s.router.maxChats a = none →
    s.router.chats a = ∅ ∧ s.router.available.lookup a = none
  /-- The set of the agent that an assignment names has the conversation. -/
  holder : ∀ c a, s.router.holder c = some a → c ∈ s.router.chats a
  /-- So has the set of the agent that a release under way has read. -/
  releasing : ∀ c a, s.releasing c = some a → c ∈ s.router.chats a

variable {s : Shared}

theorem CapacityInv.agentGoOnline (h : CapacityInv s) {a : String}
    (ha : s.router.maxChats a = none) (m : ℤ) (skills : List String) :
    CapacityInv { s with router := s.router.agentGoOnline a m skills } := by
  obtain ⟨hempty, -⟩ := h.fresh a ha
  refine { h with load := ?_, within := ?_, fresh := ?_ }
  · intro b n hb hn
    by_cases hba : b = a
    · subst hba; simpa [Router.agentGoOnline, hempty] using hn
    · exact h.load b n (by simpa [Router.agentGoOnline, AList.lookup_insert_ne hba] using hb) hn
  · intro b n hb
    by_cases hba : b = a
    · subst hba; simp [Router.agentGoOnline, hempty]
    · exact h.within b n (by simpa [Router.agentGoOnline, hba] using hb)
  · intro b hb
    by_cases hba : b = a
    · subst hba; simp [Router.agentGoOnline] at hb
    · have hb' := h.fresh b (by simpa [Router.agentGoOnline, hba] using hb)
      exact ⟨hb'.1, by simpa [Router.agentGoOnline, AList.lookup_insert_ne hba] using hb'.2⟩

/-- Pruning members removes scores and touches nothing else. -/
theorem CapacityInv.pruneAll (h : CapacityInv s) (agents : List String) :
    CapacityInv { s with router := s.router.pruneAll agents } := by
  refine { h with load := ?_, fresh := ?_ }
  · intro b n hb hn
    rw [lookup_pruneAll] at hb
    split at hb
    · exact absurd hb (by simp)
    · exact h.load b n hb hn
  · intro b hb
    refine ⟨(h.fresh b hb).1, ?_⟩
    rw [lookup_pruneAll, (h.fresh b hb).2, ite_self]

theorem CapacityInv.agentGoOffline (h : CapacityInv s) (a : String) :
    CapacityInv { s with router := s.router.agentGoOffline a } :=
  { h.pruneAll [a] with }

/-- An assignment to an available agent with room. -/
theorem CapacityInv.assign (h : CapacityInv s) {a : String} {n : ℤ}
    (ha : s.router.available.lookup a = some n) (hn : 0 ≤ n)
    (hroom : n < (s.router.maxChats a).getD 5) (c : String) :
    CapacityInv { s with router := s.router.assign a c } := by
  have hmono : ∀ b, s.router.chats b ⊆ (s.router.assign a c).chats b := by
    intro b
    by_cases hba : b = a
    · subst hba; simp [Router.assign, Finset.subset_insert]
    · simp [Router.assign, hba]
  have hcard : ((insert c (s.router.chats a)).card : ℤ) ≤ n + 1 := by
    have := Finset.card_insert_le c (s.router.chats a)
    have := h.load a n ha hn
    omega
  refine { h with load := ?_, within := ?_, fresh := ?_, holder := ?_, releasing := ?_ }
  · intro b m hb hm
    by_cases hba : b = a
    · subst hba
      obtain rfl : n + 1 = m := by simpa [Router.assign, ha] using hb
      simpa [Router.assign] using hcard
    · simpa [Router.assign, hba] using h.load b m
        (by simpa [Router.assign, SortedSet.lookup_incrBy_ne _ _ hba] using hb) hm
  · intro b m hb
    by_cases hba : b = a
    · subst hba
      have hroom' : n < m := by
        rw [show s.router.maxChats b = some m from hb, Option.getD_some] at hroom
        exact hroom
      simp only [Router.assign, Function.update_self]
      omega
    · simpa [Router.assign, hba] using h.within b m hb
  · intro b hb
    by_cases hba : b = a
    · subst hba; rw [(h.fresh b hb).2] at ha; exact absurd ha (by simp)
    · simpa [Router.assign, hba, SortedSet.lookup_incrBy_ne _ _ hba] using h.fresh b hb
  · intro d b hd
    by_cases hdc : d = c
    · subst hdc
      obtain rfl : a = b := by simpa [Router.holder, Router.assign] using hd
      simp [Router.assign]
    · exact hmono b (h.holder d b (by simpa [Router.holder, Router.assign, hdc] using hd))
  · exact fun d b hd => hmono b (h.releasing d b hd)

theorem CapacityInv.routeLua (h : CapacityInv s) (c required_skill : String) :
    CapacityInv { s with router := (s.router.routeLua find c required_skill).2 } := by
  obtain ⟨agents, hgone, ⟨-, hr, -⟩ | ⟨a, n, -, ha, hn, hroom, hon, hr⟩⟩ :=
    s.router.routeLua_cases find c required_skill
  · rw [hr]
    exact h.pruneAll agents
  · have hmem : a ∉ agents := fun hin => hgone a hin hon
    rw [hr]
    refine (h.pruneAll agents).assign (n := n) ?_ hn hroom c
    rw [lookup_pruneAll, if_neg hmem, ha]

/-- A release removes a conversation that is in the set, so score and set fall together; a member
that it creates has a negative score. -/
theorem CapacityInv.releaseExec (h : CapacityInv s) {a c : String}
    (hc : s.releasing c = some a) :
    CapacityInv { router := s.router.releaseExec a c,
                  releasing := Function.update s.releasing c none } := by
  have hmem : c ∈ s.router.chats a := h.releasing c a hc
  have hpos : 0 < (s.router.chats a).card := Finset.card_pos.mpr ⟨c, hmem⟩
  have hsub : ∀ b, ((s.router.releaseExec a c).chats b).card ≤ (s.router.chats b).card := by
    intro b
    by_cases hba : b = a
    · subst hba; simpa [Router.releaseExec] using Finset.card_erase_le
    · simp [Router.releaseExec, hba]
  have hkeep : ∀ d b, d ≠ c → d ∈ s.router.chats b → d ∈ (s.router.releaseExec a c).chats b := by
    intro d b hdc hd
    by_cases hba : b = a
    · subst hba; simpa [Router.releaseExec, hdc] using hd
    · simpa [Router.releaseExec, hba] using hd
  refine { load := ?_, within := ?_, fresh := ?_, holder := ?_, releasing := ?_ }
  · intro b m hb hm
    by_cases hba : b = a
    · subst hba
      have hb' : (s.router.available.lookup b).getD 0 - 1 = m := by
        simpa [Router.releaseExec, sub_eq_add_neg] using hb
      cases hl : s.router.available.lookup b with
      | none => rw [hl, Option.getD_none] at hb'; omega
      | some n =>
        rw [hl, Option.getD_some] at hb'
        have hload := h.load b n hl (by omega)
        simp only [Router.releaseExec, Function.update_self, Finset.card_erase_of_mem hmem]
        omega
    · simpa [Router.releaseExec, hba] using h.load b m
        (by simpa [Router.releaseExec, SortedSet.lookup_incrBy_ne _ _ hba] using hb) hm
  · exact fun b m hb => (hsub b).trans (h.within b m hb)
  · intro b hb
    have hfresh := h.fresh b hb
    have hba : b ≠ a := by
      rintro rfl
      rw [hfresh.1] at hmem
      exact absurd hmem (by simp)
    simpa [Router.releaseExec, hba, SortedSet.lookup_incrBy_ne _ _ hba] using hfresh
  · intro d b hd
    by_cases hdc : d = c
    · subst hdc; simp [Router.holder, Router.releaseExec] at hd
    · refine hkeep d b hdc (h.holder d b ?_)
      simpa [Router.holder, Router.releaseExec, hdc] using hd
  · intro d b hd
    by_cases hdc : d = c
    · subst hdc; simp at hd
    · exact hkeep d b hdc (h.releasing d b (by simpa [hdc] using hd))

theorem capacityInv_step {s' : Shared} {act : Act} (h : CapacityInv s)
    (hs : s.step find act = some s') : CapacityInv s' := by
  cases act with
  | agentGoOnline a m skills =>
    obtain ⟨ha, hs⟩ := Option.ite_none_right_eq_some.mp hs
    obtain rfl := Option.some.inj hs
    exact h.agentGoOnline ha m skills
  | agentHeartbeat a => obtain rfl := Option.some.inj hs; exact { h with }
  | expireStatus a => obtain rfl := Option.some.inj hs; exact { h with }
  | agentGoOffline a => obtain rfl := Option.some.inj hs; exact h.agentGoOffline a
  | routeToAgent c required_skill =>
    obtain rfl := Option.some.inj hs
    exact h.routeLua find c required_skill
  | releaseRead c =>
    obtain ⟨-, hs⟩ := Option.ite_none_right_eq_some.mp hs
    obtain rfl := Option.some.inj hs
    refine { h with releasing := fun d b hd => ?_ }
    by_cases hdc : d = c
    · subst hdc
      have hread : s.router.releaseRead d = some b := by simpa using hd
      exact h.holder d b (releaseRead_eq_some.mp hread).2
    · exact h.releasing d b (by simpa [hdc] using hd)
  | releaseExec c =>
    obtain ⟨a, hc, rfl⟩ := Option.map_eq_some_iff.mp hs
    exact h.releaseExec hc

theorem capacityInv_start : CapacityInv start where
  load a n ha _ := by simp [start, empty] at ha
  within a m ha := by simp [start, empty] at ha
  fresh a _ := by simp [start, empty]
  holder c a ha := by simp [start, empty, Router.holder] at ha
  releasing c a ha := by simp [start] at ha

/-- **No over-assignment.** Whatever the interleaving, no agent ever holds more conversations than
its `max_chats`. -/
theorem chats_within_capacity (acts : List Act) :
    Transition.Always (step find) WithinCapacity start acts :=
  (Transition.always_of_invariant (fun _ _ _ h hs => capacityInv_step find h hs)
    capacityInv_start acts).imp fun _ h => h.within

/-- Two routings for the one slot of an agent: the second one finds nobody. -/
example : (Transition.run (step fun _ _ => some true) start
    [.agentGoOnline "agent-1" 1 [], .routeToAgent "conv-1" "", .routeToAgent "conv-2" ""]).map
      (fun s => s.router.chats "agent-1") = some {"conv-1"} := by decide

end Shared

end Router

end TitanChat
