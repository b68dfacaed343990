import TitanChat.Internal.Transition

/-!
# Calls that take effect at one step

Several calls work on a shared state. Each of them takes some steps and then returns, and a schedule
says whose step is next, so a schedule is a list of positions in the list of calls.

What a call is meant to do is said by `perform`, which does it in one go. A step is *silent* if it
leaves the shared state alone and does not return, and it *commits* if it returns what `perform`
returns on the shared state of that moment and leaves what `perform` leaves. Calls that are silent
until they commit are linearizable, in the order in which they commit: that is `linearized_step`,
which an invariant rule carries along a run.

## Main definitions

* `Conf`, `step`: the calls under way, and the step of one of them
* `sequential`: calls one after the other
* `Linearized`: the calls that have returned have an order which explains their replies and the
  shared state

## Main results

* `linearized_step`: one step
* `map_fst_of_step`: the calls stay the same calls
-/

namespace Linearize

variable {σ κ π ρ : Type*}

/-- How far a call is: what it keeps for its next step, or its reply. -/
inductive Progress (π ρ : Type*) where
  | running (p : π)
  | returned (r : ρ)
  deriving DecidableEq, Repr

/-- The shared state and the calls. -/
structure Conf (σ κ π ρ : Type*) where
  shared : σ
  calls : List (κ × Progress π ρ)

/-- Some calls before their first steps. -/
def Conf.start (p : π) (s : σ) (ks : List κ) : Conf σ κ π ρ :=
  ⟨s, ks.map fun k => (k, .running p)⟩

/-- A call with its reply, if it has returned. -/
def reply : κ × Progress π ρ → Option (κ × ρ)
  | (_, .running _) => none
  | (k, .returned r) => some (k, r)

/-- The calls that have returned. -/
def Conf.finished (c : Conf σ κ π ρ) : List (κ × ρ) := c.calls.filterMap reply

/-- The next step of the call at position `i`, by what the calls do in one step. -/
def step (act : κ → π → σ → Progress π ρ × σ) (c : Conf σ κ π ρ) (i : ℕ) :
    Option (Conf σ κ π ρ) :=
  match c.calls[i]? with
  | some (k, .running p) => some ⟨(act k p c.shared).2, c.calls.set i (k, (act k p c.shared).1)⟩
  | _ => none

/-- The replies of calls that are made one after the other, and what they leave. -/
def sequential (perform : κ → σ → ρ × σ) : σ → List κ → List ρ × σ
  | s, [] => ([], s)
  | s, k :: ks =>
    let (rs, s') := sequential perform (perform k s).2 ks
    ((perform k s).1 :: rs, s')

/-- The calls that have returned did so as if made one after the other, in some order. -/
def Linearized (perform : κ → σ → ρ × σ) (s : σ) (c : Conf σ κ π ρ) : Prop :=
  ∃ order : List (κ × ρ), order.Perm c.finished ∧
    sequential perform s (order.map Prod.fst) = (order.map Prod.snd, c.shared)

variable {act : κ → π → σ → Progress π ρ × σ} {perform : κ → σ → ρ × σ} {c c' : Conf σ κ π ρ}
  {i : ℕ} {s : σ}

theorem sequential_append (perform : κ → σ → ρ × σ) (s : σ) (ks ks' : List κ) :
    sequential perform s (ks ++ ks') =
      ((sequential perform s ks).1 ++ (sequential perform (sequential perform s ks).2 ks').1,
        (sequential perform (sequential perform s ks).2 ks').2) := by
  induction ks generalizing s with
  | nil => rfl
  | cons k ks ih => simp only [List.cons_append, sequential, ih]

/-- The call that a step belongs to. -/
theorem step_eq (h : step act c i = some c') : ∃ k p, c.calls[i]? = some (k, .running p) ∧
    c' = ⟨(act k p c.shared).2, c.calls.set i (k, (act k p c.shared).1)⟩ := by
  unfold step at h
  split at h
  · next k p hcall => exact ⟨k, p, hcall, (Option.some.inj h).symm⟩
  · exact absurd h.symm (Option.some_ne_none c')

/-- A step takes no call away and makes none. -/
theorem map_fst_of_step (h : step act c i = some c') :
    c'.calls.map Prod.fst = c.calls.map Prod.fst := by
  obtain ⟨k, p, hcall, rfl⟩ := step_eq h
  obtain ⟨hi, hget⟩ := List.getElem?_eq_some_iff.mp hcall
  rw [List.map_set]
  refine (congrArg _ ?_).trans (List.set_getElem_self (by simpa using hi))
  rw [List.getElem_map, hget]

/-- The other calls are where they were. -/
theorem getElem?_of_step {j : ℕ} (h : step act c i = some c') (hj : j ≠ i) :
    c'.calls[j]? = c.calls[j]? := by
  obtain ⟨k, p, -, rfl⟩ := step_eq h
  exact List.getElem?_set_ne hj.symm

/-- Whatever takes the place of an element that is filtered out adds what it is mapped to. -/
theorem perm_filterMap_set {α β : Type*} {f : α → Option β} {l : List α} {x y : α}
    (h : l[i]? = some x) (hx : f x = none) :
    ((l.set i y).filterMap f).Perm ((f y).toList ++ l.filterMap f) := by
  induction l generalizing i with
  | nil => simp at h
  | cons z l ih =>
    cases i with
    | zero =>
      obtain rfl : z = x := by simpa using h
      cases hy : f y <;> simp [hx, hy]
    | succ i =>
      have ih := ih (i := i) (by simpa using h)
      rw [List.set_cons_succ]
      cases hz : f z with
      | none => simpa [hz] using ih
      | some b => simpa [hz] using (ih.cons b).trans List.perm_middle.symm

/-- **One step.** A call that is silent or commits keeps the calls linearized. -/
theorem linearized_step (hc : Linearized perform s c) (h : step act c i = some c')
    (hstep : ∀ k p, c.calls[i]? = some (k, .running p) →
      (∃ p', act k p c.shared = (.running p', c.shared)) ∨
        act k p c.shared = (.returned (perform k c.shared).1, (perform k c.shared).2)) :
    Linearized perform s c' := by
  obtain ⟨k, p, hcall, rfl⟩ := step_eq h
  obtain ⟨order, hperm, hseq⟩ := hc
  have hset := fun o => perm_filterMap_set (f := reply) (y := (k, o)) hcall rfl
  obtain ⟨p', hsilent⟩ | hcommit := hstep k p hcall
  · refine ⟨order, hperm.trans ?_, ?_⟩
    · rw [Conf.finished, hsilent]
      exact (hset (.running p')).symm
    · rw [hseq, hsilent]
  · refine ⟨order ++ [(k, (perform k c.shared).1)], ?_, ?_⟩
    · rw [Conf.finished, hcommit]
      refine (List.perm_append_comm.trans (hperm.append_left [_])).trans ?_
      exact (hset (.returned (perform k c.shared).1)).symm
    · rw [List.map_append, sequential_append, hseq, List.map_append, hcommit]
      rfl

theorem linearized_start (p : π) (s : σ) (ks : List κ) :
    Linearized perform s (.start p s ks : Conf σ κ π ρ) := by
  refine ⟨[], ?_, rfl⟩
  have hnone : (Conf.start p s ks : Conf σ κ π ρ).finished = [] := by
    simp [Conf.finished, Conf.start, reply]
  rw [hnone]

end Linearize
