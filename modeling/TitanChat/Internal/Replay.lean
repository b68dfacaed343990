import Mathlib.Data.List.Basic
import Mathlib.Data.List.Infix

/-!
# Writes that are done again

A program that only writes may be stopped after any of its writes and started again from its first.
The writes of the stopped run are then done twice, and other writes lie between the two times. They
leave no trace if each of them is idempotent and commutes with the writes of the program.

## Main definitions

* `Replay.perform`: writes done in order
* `Replay.Overwritten`: a write that a later run of the whole program hides

## Main results

* `perform_perform`: a run of the program hides the overwritten writes before it
-/

namespace Replay

variable {σ ω : Type*} {apply : σ → ω → σ}

/-- Do the writes in order. -/
def perform (apply : σ → ω → σ) (s : σ) (ws : List ω) : σ := ws.foldl apply s

@[simp] theorem perform_nil (s : σ) : perform apply s [] = s := rfl

@[simp] theorem perform_cons (s : σ) (w : ω) (ws : List ω) :
    perform apply s (w :: ws) = perform apply (apply s w) ws := rfl

theorem perform_append (s : σ) (vs ws : List ω) :
    perform apply s (vs ++ ws) = perform apply (perform apply s vs) ws :=
  List.foldl_append

/-- Doing the write twice is doing it once. -/
def Idempotent (apply : σ → ω → σ) (w : ω) : Prop := ∀ s, apply (apply s w) w = apply s w

/-- The order of the two writes does not matter. -/
def Commute (apply : σ → ω → σ) (v w : ω) : Prop :=
  ∀ s, apply (apply s v) w = apply (apply s w) v

/-- The write is one of the program's, and the program does not depend on whether it was done
before. -/
structure Overwritten (apply : σ → ω → σ) (ws : List ω) (w : ω) : Prop where
  mem : w ∈ ws
  idempotent : Idempotent apply w
  commute : ∀ v ∈ ws, Commute apply w v

theorem perform_comm {ws : List ω} {w : ω} (h : ∀ v ∈ ws, Commute apply w v) (s : σ) :
    perform apply (apply s w) ws = apply (perform apply s ws) w := by
  induction ws generalizing s with
  | nil => rfl
  | cons v vs ih =>
    rw [List.forall_mem_cons] at h
    rw [perform_cons, perform_cons, h.1 s, ih h.2]

theorem perform_apply {ws : List ω} {w : ω} (h : Overwritten apply ws w) (s : σ) :
    perform apply (apply s w) ws = perform apply s ws := by
  obtain ⟨front, back, rfl⟩ := List.append_of_mem h.mem
  have hfront : ∀ v ∈ front, Commute apply w v := fun v hv => h.commute v (by simp [hv])
  rw [perform_append, perform_append, perform_comm hfront, perform_cons, perform_cons,
    h.idempotent]

/-- **A whole run hides what was done before it**, if all of that is overwritten. -/
theorem perform_perform {ws ps : List ω} (h : ∀ p ∈ ps, Overwritten apply ws p) (s : σ) :
    perform apply (perform apply s ps) ws = perform apply s ws := by
  induction ps generalizing s with
  | nil => rfl
  | cons p ps ih =>
    rw [List.forall_mem_cons] at h
    rw [perform_cons, ih h.2, perform_apply h.1]

end Replay
