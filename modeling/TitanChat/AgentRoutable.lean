import TitanChat.AgentLoad

/-!
# Who the router considers

An agent that has gone online is available twice over: its id is a member of `agent:available`, and
its key `agent:status` says `online` as long as it sends heartbeats. The two are set together, by
`agent_go_online`, and lost apart. The key expires on its own. The member is removed later, by a
routing that meets it while the key is gone. A heartbeat then brings back the key and not the
member, so the agent is online and no routing will look at it again.

A release can do the same damage. It lowers the score of an agent whether or not the agent is a
member, and going online has set that score to `0` whatever chats the agent still had; the script
does not read members of negative score.

## Main definitions

* `Roster`: the keys, and the agents that are at work
* `Routable`: those of them whose key says `online` are considered
* `KeepsRoutable`: the guard

## Main results

* `routable_iff`: when it holds throughout a run
* `not_routable`: an agent that missed its heartbeats and sends them again
-/

namespace TitanChat

namespace Router

/-- The keys, and who has gone online and not gone offline since. -/
structure Roster where
  router : Router
  atWork : String → Bool

/-- The script reads the agent as a candidate. -/
def Considered (r : Router) (a : String) : Prop := ∃ n, (a, n) ∈ r.available.rangeFrom 0

theorem considered_iff {r : Router} {a : String} :
    r.Considered a ↔ ∃ n, r.available.lookup a = some n ∧ 0 ≤ n :=
  exists_congr fun _ => SortedSet.mem_rangeFrom

namespace Roster

/-- Nobody has been online. -/
def empty : Roster := ⟨Router.empty, fun _ => false⟩

/-- Every agent at work whose status is online is considered. -/
def Routable (s : Roster) : Prop :=
  ∀ a, s.atWork a = true → s.router.status a = some "online" → s.router.Considered a

/-- A heartbeat of an agent at work finds it considered, and a release for one that is online finds
its score positive. -/
def KeepsRoutable (s : Roster) : Op → Prop
  | .agentHeartbeat a => s.atWork a = true → s.router.Considered a
  | .releaseAgentSlot c => ∀ a, s.router.releaseRead c = some a → s.atWork a = true →
      s.router.status a = some "online" → ∃ n, s.router.available.lookup a = some n ∧ 1 ≤ n
  | _ => True

variable (find : String → String → Option Bool)

/-- The state after an operation. -/
def perform (s : Roster) (op : Op) : Roster where
  router := s.router.perform find op
  atWork := match op with
    | .agentGoOnline a _ _ => Function.update s.atWork a true
    | .agentGoOffline a => Function.update s.atWork a false
    | _ => s.atWork

/-- Every operation is possible in every state. -/
def step (s : Roster) (op : Op) : Option Roster := some (s.perform find op)

variable {s : Roster}

theorem Routable.agentGoOnline (h : Routable s) (a : String) (m : ℤ) (skills : List String) :
    Routable (s.perform find (.agentGoOnline a m skills)) := by
  intro b hb hon
  rw [considered_iff]
  by_cases hba : b = a
  · subst hba
    exact ⟨0, AList.lookup_insert _, le_rfl⟩
  · simp only [perform, Router.perform, Router.agentGoOnline, Function.update_of_ne hba] at hb hon
    obtain ⟨n, hn, h0⟩ := considered_iff.mp (h b hb hon)
    exact ⟨n, (AList.lookup_insert_ne hba).trans hn, h0⟩

theorem Routable.agentGoOffline (h : Routable s) (a : String) :
    Routable (s.perform find (.agentGoOffline a)) := by
  intro b hb hon
  rw [considered_iff]
  by_cases hba : b = a
  · subst hba
    simp [perform] at hb
  · simp only [perform, Router.perform, Router.agentGoOffline, Function.update_of_ne hba] at hb hon
    obtain ⟨n, hn, h0⟩ := considered_iff.mp (h b hb hon)
    exact ⟨n, (AList.lookup_erase_ne hba).trans hn, h0⟩

theorem Routable.expireStatus (h : Routable s) (a : String) :
    Routable (s.perform find (.expireStatus a)) := by
  intro b hb hon
  by_cases hba : b = a
  · subst hba
    simp [perform, Router.perform, Router.expireStatus] at hon
  · exact h b hb (by simpa [perform, Router.perform, Router.expireStatus, hba] using hon)

/-- A routing removes nobody whose status is online, and raises the score of the one it takes. -/
theorem Routable.routeToAgent (h : Routable s) (c required_skill : String) :
    Routable (s.perform find (.routeToAgent c required_skill)) := by
  intro b hb hon
  rw [considered_iff]
  simp only [perform, Router.perform] at hb hon ⊢
  obtain ⟨agents, hgone, ⟨-, hr, -⟩ | ⟨a, n, -, ha, h0, -, hona, hr⟩⟩ :=
    s.router.routeLua_cases find c required_skill
  · rw [hr] at hon ⊢
    obtain ⟨n, hn, h0⟩ := considered_iff.mp (h b hb hon)
    exact ⟨n, by rw [lookup_pruneAll, if_neg fun hin => hgone b hin hon, hn], h0⟩
  · rw [hr] at hon ⊢
    obtain ⟨m, hm, h0⟩ := considered_iff.mp (h b hb hon)
    have hkept : (s.router.pruneAll agents).available.lookup b = some m := by
      rw [lookup_pruneAll, if_neg fun hin => hgone b hin hon, hm]
    by_cases hba : b = a
    · subst hba
      refine ⟨m + 1, ?_, by omega⟩
      rw [assign, SortedSet.lookup_incrBy_self, hkept, Option.getD_some]
    · exact ⟨m, by rw [assign, SortedSet.lookup_incrBy_ne _ _ hba, hkept], h0⟩

/-- A heartbeat makes one more agent online and nobody a candidate. -/
theorem routable_agentHeartbeat_iff (h : Routable s) (a : String) :
    Routable (s.perform find (.agentHeartbeat a)) ↔
      (s.atWork a = true → s.router.Considered a) := by
  constructor
  · exact fun h' ha => h' a ha (Function.update_self ..)
  · intro ha b hb hon
    by_cases hba : b = a
    · subst hba
      exact ha hb
    · exact h b hb (by simpa [perform, Router.perform, Router.agentHeartbeat, hba] using hon)

/-- A release lowers one score. -/
theorem routable_releaseAgentSlot_iff (h : Routable s) (c : String) :
    Routable (s.perform find (.releaseAgentSlot c)) ↔
      ∀ a, s.router.releaseRead c = some a → s.atWork a = true →
        s.router.status a = some "online" → ∃ n, s.router.available.lookup a = some n ∧ 1 ≤ n := by
  cases hread : s.router.releaseRead c with
  | none =>
    refine iff_of_true ?_ fun a ha => absurd ha.symm (Option.some_ne_none a)
    have hsame : s.perform find (.releaseAgentSlot c) = s := by
      simp only [perform, Router.perform, releaseAgentSlot_of_none hread]
    rwa [hsame]
  | some a =>
    have hafter : (s.perform find (.releaseAgentSlot c)).router =
        s.router.releaseExec a c := releaseAgentSlot_of_some hread
    constructor
    · rintro h' b hb hwork hon
      obtain rfl := Option.some.inj hb
      obtain ⟨n, hn, -⟩ := considered_iff.mp (h a hwork hon)
      obtain ⟨m, hm, h0⟩ := considered_iff.mp (h' a hwork (hafter ▸ hon))
      rw [hafter, releaseExec, SortedSet.lookup_incrBy_self, hn, Option.getD_some,
        Option.some.injEq] at hm
      exact ⟨n, hn, by omega⟩
    · intro hpos b hb hon
      rw [hafter] at hon ⊢
      rw [considered_iff]
      obtain ⟨m, hm, h0⟩ := considered_iff.mp (h b hb hon)
      by_cases hba : b = a
      · subst hba
        obtain ⟨n, hn, h1⟩ := hpos b rfl hb hon
        refine ⟨n + -1, ?_, by omega⟩
        rw [releaseExec, SortedSet.lookup_incrBy_self, hn, Option.getD_some]
      · exact ⟨m, by rw [releaseExec, SortedSet.lookup_incrBy_ne _ _ hba, hm], h0⟩

/-- **One operation** keeps the agents routable exactly when it meets the guard. -/
theorem routable_perform_iff (h : Routable s) (op : Op) :
    Routable (s.perform find op) ↔ s.KeepsRoutable op := by
  cases op with
  | agentGoOnline a m skills => exact iff_of_true (h.agentGoOnline find a m skills) trivial
  | agentHeartbeat a => exact routable_agentHeartbeat_iff find h a
  | expireStatus a => exact iff_of_true (h.expireStatus find a) trivial
  | agentGoOffline a => exact iff_of_true (h.agentGoOffline find a) trivial
  | routeToAgent c required_skill =>
    exact iff_of_true (h.routeToAgent find c required_skill) trivial
  | releaseAgentSlot c => exact routable_releaseAgentSlot_iff find h c

/-- **Online agents are considered, exactly.** From the empty store, every agent at work whose
status is online is considered throughout a run if and only if each heartbeat of an agent at work
finds it considered and each release for one that is online finds a positive score. -/
theorem routable_iff (ops : List Op) :
    Transition.Always (step find) Routable empty ops ↔
      Transition.Guarded (step find) KeepsRoutable empty ops := by
  refine Transition.always_iff_guarded (K := fun _ => True) (fun _ _ _ _ _ => trivial) ?_ trivial
    fun a ha => absurd ha Bool.false_ne_true
  intro s op s' _ h hs
  obtain rfl : s.perform find op = s' := Option.some.inj hs
  exact routable_perform_iff find h op

/-- An agent goes online, misses its heartbeats, is pruned by a routing, and sends heartbeats
again. -/
theorem not_routable : ¬∀ (find : String → String → Option Bool) (ops : List Op) (s : Roster),
    Transition.run (step find) empty ops = some s → Routable s := by
  intro h
  obtain ⟨n, hn, -⟩ := considered_iff.mp (h (fun _ _ => some true)
    [.agentGoOnline "agent-1" 5 [], .expireStatus "agent-1", .routeToAgent "conv-1" "",
      .agentHeartbeat "agent-1"] _ rfl "agent-1" (by decide) (by decide))
  have hgone : (none : Option ℤ) = some n := hn
  exact absurd hgone.symm (Option.some_ne_none n)

end Roster

end Router

end TitanChat
