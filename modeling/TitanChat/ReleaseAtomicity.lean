import TitanChat.AgentRouter
import TitanChat.Internal.Linearize

/-!
# Releases between other calls

`release_agent_slot` reads the agent of a conversation with one command and gives the slot back with
a pipeline. The pipeline is atomic and so is the routing script, but nothing joins the pipeline to
the read: another consumer may release the same conversation, or route it again, in between. The
pipeline then works on an agent id that the conversation no longer has.

Any number of calls run here, on any store, and a schedule interleaves their steps. A release that
nobody disturbs between its steps takes effect at its pipeline, a release that finds no agent at its
read, and a routing at its only step. So if no step of a run disturbs a release, the run is one of
the same calls in some sequential order.

## Main definitions

* `Call`, `act`: the calls and their steps
* `perform`: a call with nothing in between
* `Sequential`: replies and store are those of a sequential order
* `Undisturbed`: the step does not write the assignment that a release has read

## Main results

* `atomic_iff_undisturbed`: when the calls are atomic in effect
* `not_sequential`: two releases of one conversation give its slot back twice
-/

namespace TitanChat

namespace Router

namespace Release

open Linearize

/-- A call by a consumer. -/
inductive Call where
  | release (conversation_id : String)
  | route (conversation_id required_skill : String)
  deriving DecidableEq, Repr

/-- Where a call is: `looked` is a release after its `HGET`. -/
inductive Phase where
  | begun
  /-- The agent it read, and how many routings had assigned the conversation by then. -/
  | looked (agent_id : String) (assigned : ℕ)
  deriving DecidableEq, Repr

/-- The keys, and beside them how often each conversation has been assigned. The code does not know
the second: it tells an assignment from a later one of the same agent. -/
structure Store where
  router : Router
  assigned : String → ℕ

/-- A release returns nothing. -/
abbrev Answer := Option Reply

section Calls

variable (find : String → String → Option Bool)

/-- The routing script. -/
def route (s : Store) (c required_skill : String) : Answer × Store :=
  let (reply, router) := s.router.routeLua find c required_skill
  (some reply, ⟨router, match s.router.leastLoaded find required_skill with
    | none => s.assigned
    | some _ => Function.update s.assigned c (s.assigned c + 1)⟩)

/-- The next step of a call. -/
def act : Call → Phase → Store → Progress Phase Answer × Store
  | .release c, .begun, s =>
    match s.router.releaseRead c with
    | none => (.returned none, s)
    | some agent_id => (.running (.looked agent_id (s.assigned c)), s)
  | .release c, .looked agent_id _, s =>
    (.returned none, ⟨s.router.releaseExec agent_id c, s.assigned⟩)
  | .route c required_skill, _, s =>
    let (answer, s) := route find s c required_skill
    (.returned answer, s)

/-- A whole call. -/
def perform : Call → Store → Answer × Store
  | .release c, s => (none, ⟨s.router.releaseAgentSlot c, s.assigned⟩)
  | .route c required_skill, s => route find s c required_skill

/-- The calls under way. -/
abbrev Calls := Conf Store Call Phase Answer

/-- The calls that have returned, with their replies, have a sequential order that replies the same
and leaves the same keys. -/
def Sequential (s : Store) (k : Calls) : Prop :=
  ∃ order : List (Call × Answer), order.Perm k.finished ∧
    (sequential (perform find) s (order.map Prod.fst)).1 = order.map Prod.snd ∧
    (sequential (perform find) s (order.map Prod.fst)).2.router = k.shared.router

/-- The conversation whose assignment the next step of a call writes. -/
def writes (s : Store) : Call × Progress Phase Answer → Option String
  | (.release c, .running (.looked _ _)) => some c
  | (.route c required_skill, .running _) =>
    (s.router.leastLoaded find required_skill).map fun _ => c
  | _ => none

end Calls

/-- The conversation of a release that has looked and has not run its pipeline. -/
def pending : Call × Progress Phase Answer → Option String
  | (.release c, .running (.looked _ _)) => some c
  | _ => none

/-- The step of call `i` does not write the assignment of a conversation that another release has
read and not yet given back. -/
def Undisturbed (find : String → String → Option Bool) (k : Calls) (i : ℕ) : Prop :=
  ∀ c ∈ k.calls[i]?.bind (writes find k.shared), ∀ j < k.calls.length, j ≠ i →
    k.calls[j]?.bind pending ≠ some c

instance (find : String → String → Option Bool) (k : Calls) (i : ℕ) :
    Decidable (Undisturbed find k i) :=
  inferInstanceAs (Decidable (∀ c ∈ k.calls[i]?.bind (writes find k.shared),
    ∀ j < k.calls.length, j ≠ i → k.calls[j]?.bind pending ≠ some c))

/-- A release that is about to run its pipeline: the assignment that it has read is there, and has
not been made anew. -/
def Held (k : Calls) : Prop :=
  ∀ (j : ℕ) (c agent_id : String) (n : ℕ),
    k.calls[j]? = some (.release c, .running (.looked agent_id n)) →
    k.shared.router.releaseRead c = some agent_id ∧ k.shared.assigned c = n

/-- The calls of `ks` are atomic in effect, no slot is given back twice, and no assignment that was
made after the release had looked is deleted. -/
structure Atomic (find : String → String → Option Bool) (s : Store) (ks : List Call) (k : Calls) :
    Prop where
  same : k.calls.map Prod.fst = ks
  sequential : Sequential find s k
  held : Held k

/-! ### One step -/

section Step

variable {find : String → String → Option Bool} {s : Store} {k k' : Calls} {i : ℕ}

/-- The assignment of a conversation that a step does not write. -/
theorem act_frame {call : Call} {p : Phase} {d : String}
    (h : writes find s (call, .running p) ≠ some d) :
    (act find call p s).2.router.releaseRead d = s.router.releaseRead d ∧
      (act find call p s).2.assigned d = s.assigned d := by
  cases call with
  | release c =>
    cases p with
    | begun =>
      simp only [act]
      cases s.router.releaseRead c <;> exact ⟨rfl, rfl⟩
    | looked a n =>
      have hdc : d ≠ c := fun hdc => h (congrArg some hdc.symm)
      simp [act, releaseRead, holder, releaseExec, hdc]
  | route c required_skill =>
    simp only [act, route, releaseRead_routeLua]
    cases hleast : s.router.leastLoaded find required_skill with
    | none => exact ⟨rfl, rfl⟩
    | some a =>
      have hdc : d ≠ c := fun hdc => h (by simp [writes, hleast, hdc])
      simp [hdc]

/-- The assignment of the conversation that it does write: it is gone, or made anew. -/
theorem act_writes {call : Call} {p : Phase} {d : String}
    (h : writes find s (call, .running p) = some d) :
    (act find call p s).2.router.releaseRead d = none ∨
      (act find call p s).2.assigned d = s.assigned d + 1 := by
  cases call with
  | release c =>
    cases p with
    | begun => simp [writes] at h
    | looked a n =>
      obtain rfl : c = d := Option.some.inj h
      exact Or.inl (by simp [act, releaseRead, holder, releaseExec])
  | route c required_skill =>
    simp only [writes, Option.map_eq_some_iff] at h
    obtain ⟨a, hleast, rfl⟩ := h
    exact Or.inr (by simp [act, route, hleast])

/-- The step of a release that goes on. -/
theorem act_running {call : Call} {p : Phase} {c agent_id : String} {n : ℕ}
    (hcall : call = .release c) (h : (act find call p s).1 = .running (.looked agent_id n)) :
    (act find call p s).2 = s ∧ s.router.releaseRead c = some agent_id ∧ s.assigned c = n := by
  subst hcall
  cases p with
  | begun =>
    simp only [act] at h ⊢
    cases hread : s.router.releaseRead c with
    | none => simp [hread] at h
    | some a =>
      simp only [hread, Progress.running.injEq, Phase.looked.injEq] at h
      exact ⟨rfl, congrArg some h.1, h.2⟩
  | looked a m => simp [act] at h

/-- An undisturbed step leaves the pending releases their assignments. -/
theorem held_step (hheld : Held k) (hfree : Undisturbed find k i)
    (h : Linearize.step (act find) k i = some k') : Held k' := by
  obtain ⟨call, p, hcall, rfl⟩ := step_eq h
  intro j c a n hj
  by_cases hji : j = i
  · obtain ⟨hi, -⟩ := List.getElem?_eq_some_iff.mp hcall
    simp only [hji, List.getElem?_set_self hi, Option.some.injEq, Prod.mk.injEq] at hj
    obtain ⟨hstay, hread, hn⟩ := act_running hj.1 hj.2
    simp only [hstay]
    exact ⟨hread, hn⟩
  · rw [List.getElem?_set_ne (Ne.symm hji)] at hj
    have hwrites : writes find k.shared (call, .running p) ≠ some c := by
      intro hw
      have hin : c ∈ k.calls[i]?.bind (writes find k.shared) := by simpa [hcall] using hw
      refine hfree c hin j (List.getElem?_eq_some_iff.mp hj).1 hji ?_
      simp [hj, pending]
    obtain ⟨hread, hassigned⟩ := act_frame hwrites
    rw [hread, hassigned]
    exact hheld j c a n hj

/-- A step that does not leave them has disturbed one. -/
theorem undisturbed_of_held (hheld : Held k) (hheld' : Held k')
    (h : Linearize.step (act find) k i = some k') : Undisturbed find k i := by
  intro c hc j _ hji hpending
  obtain ⟨⟨release, progress⟩, hj, hp⟩ := Option.bind_eq_some_iff.mp hpending
  unfold pending at hp
  split at hp
  · next d a n heq =>
    obtain ⟨rfl, rfl⟩ := Prod.mk.inj heq
    obtain rfl : d = c := Option.some.inj hp
    have hj' : k'.calls[j]? = some (.release d, .running (.looked a n)) :=
      (getElem?_of_step h hji).trans hj
    obtain ⟨hread, hassigned⟩ := hheld j d a n hj
    obtain ⟨hread', hassigned'⟩ := hheld' j d a n hj'
    obtain ⟨call, p, hcall, rfl⟩ := step_eq h
    have hw : writes find k.shared (call, .running p) = some d := by simpa [hcall] using hc
    obtain hgone | hanew := act_writes hw
    · exact absurd (hread'.symm.trans hgone) (Option.some_ne_none a)
    · rw [hassigned, ← hassigned'] at hanew
      exact absurd hanew (Nat.succ_ne_self _).symm
  · exact absurd hp.symm (Option.some_ne_none c)

/-- A step is silent or commits, if the assignment is still there when a pipeline runs. -/
theorem silent_or_commits (hheld : Held k) (call : Call) (p : Phase)
    (hcall : k.calls[i]? = some (call, .running p)) :
    (∃ p', act find call p k.shared = (.running p', k.shared)) ∨
      act find call p k.shared =
        (.returned (perform find call k.shared).1, (perform find call k.shared).2) := by
  cases call with
  | route c required_skill => exact Or.inr rfl
  | release c =>
    cases p with
    | begun =>
      simp only [act, perform]
      cases hread : k.shared.router.releaseRead c with
      | none =>
        rw [releaseAgentSlot_of_none hread]
        exact Or.inr rfl
      | some a => exact Or.inl ⟨_, rfl⟩
    | looked a n =>
      obtain ⟨hread, -⟩ := hheld i c a n hcall
      simp only [act, perform, releaseAgentSlot_of_some hread]
      exact Or.inr trivial

theorem linearized_of_held {s : Store} (hlin : Linearized (perform find) s k) (hheld : Held k)
    (h : Linearize.step (act find) k i = some k') : Linearized (perform find) s k' :=
  linearized_step hlin h fun call p hcall => silent_or_commits hheld call p hcall

end Step

/-! ### A run -/

theorem sequential_of_linearized {find : String → String → Option Bool} {s : Store} {k : Calls}
    (h : Linearized (perform find) s k) : Sequential find s k := by
  obtain ⟨order, hperm, hseq⟩ := h
  exact ⟨order, hperm, congrArg Prod.fst hseq, congrArg (fun r => r.2.router) hseq⟩

theorem held_start (s : Store) (ks : List Call) : Held (.start .begun s ks) := by
  intro j c a n hj
  simp [Conf.start] at hj

theorem atomic_of_undisturbed (find : String → String → Option Bool) (s : Store) (ks : List Call)
    (schedule : List ℕ) (h : Transition.Guarded (Linearize.step (act find)) (Undisturbed find)
      (.start .begun s ks) schedule) :
    Transition.Always (Linearize.step (act find)) (Atomic find s ks) (.start .begun s ks)
      schedule := by
  have hsame : (Conf.start .begun s ks : Calls).calls.map Prod.fst = ks := by
    simp [Conf.start, Function.comp_def]
  have hrun : Transition.Always (Linearize.step (act find)) (fun k => k.calls.map Prod.fst = ks ∧
      Linearized (perform find) s k ∧ Held k) (.start .begun s ks) schedule := by
    refine Transition.always_of_guarded ?_ ⟨hsame, linearized_start _ s ks, held_start s ks⟩ h
    rintro k i k' ⟨hks, hlin, hheld⟩ hfree hstep
    exact ⟨(map_fst_of_step hstep).trans hks, linearized_of_held hlin hheld hstep,
      held_step hheld hfree hstep⟩
  exact hrun.imp fun k hk => ⟨hk.1, sequential_of_linearized hk.2.1, hk.2.2⟩

/-- **Releases between other calls, exactly.** From any store, for any calls, a run is atomic in
effect throughout if and only if none of its steps disturbs a release. -/
theorem atomic_iff_undisturbed (find : String → String → Option Bool) (s : Store) (ks : List Call)
    (schedule : List ℕ) :
    Transition.Always (Linearize.step (act find)) (Atomic find s ks) (.start .begun s ks) schedule ↔
      Transition.Guarded (Linearize.step (act find)) (Undisturbed find) (.start .begun s ks)
        schedule := by
  constructor
  · intro h
    have hheld : Transition.Always (Linearize.step (act find)) Held (.start .begun s ks) schedule :=
      h.imp fun k hk => hk.held
    refine (Transition.always_iff_guarded (K := fun _ => True) (fun _ _ _ _ _ => trivial) ?_ trivial
      (held_start s ks)).mp hheld
    intro k i k' _ hk hstep
    exact ⟨fun hk' => undisturbed_of_held hk hk' hstep, fun hfree => held_step hk hfree hstep⟩
  · exact atomic_of_undisturbed find s ks schedule

/-- One agent with one chat. -/
def oneChat : Store :=
  ⟨((empty.agentGoOnline "agent-1" 5 []).routeLua (fun _ _ => some true) "conv-1" "").2, fun _ => 0⟩

/-- A routing of another conversation between the two steps of a release. -/
example : Transition.Guarded (Linearize.step (act fun _ _ => some true))
    (Undisturbed fun _ _ => some true)
    (.start .begun oneChat [.release "conv-1", .route "conv-2" ""]) [0, 1, 0] :=
  .cons rfl (by decide) (.cons rfl (by decide) (.cons rfl (by decide) trivial))

/-- Two consumers release one conversation, and each reads the agent before the other's pipeline. In
either order the second would find nothing. -/
theorem not_sequential : ¬∀ (find : String → String → Option Bool) (s : Store) (ks : List Call)
    (schedule : List ℕ) (k : Calls),
    Transition.run (Linearize.step (act find)) (.start .begun s ks) schedule = some k →
      (∀ e ∈ k.calls, (reply e).isSome) → Sequential find s k := by
  intro h
  obtain ⟨order, hperm, -, hrouter⟩ := h (fun _ _ => some true) oneChat
    [.release "conv-1", .release "conv-1"] [0, 1, 0, 1] _ rfl (by decide)
  have horder : order = [(.release "conv-1", none), (.release "conv-1", none)] :=
    List.perm_replicate (n := 2).mp hperm
  rw [horder] at hrouter
  have hscore := congrArg (fun r => r.available.lookup "agent-1") hrouter
  exact absurd hscore (by decide)

end Release

end Router

end TitanChat
