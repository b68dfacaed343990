import Mathlib.Logic.Function.Basic
import TitanChat.Internal.Transition

/-!
# A slot and its newcomers

A slot holds one member at a time. A newcomer looks who is in it. If there is somebody, the newcomer
empties the slot and evicts that member; then it waits to be admitted, and once it is, it moves in.
The look and the move are two steps, and other newcomers may come in between, each of which finds an
empty slot and evicts nobody. Who moves in then displaces a member that nobody will ever evict.

Displaced members stay displaced. So when all newcomers are inside, the one in the slot is the only
member who was admitted and not evicted if and only if every newcomer has moved into an empty slot.

## Main definitions

* `Phase`, `Slot`, `Move`, `step`
* `Tracked`: what every run preserves
* `Accounted`: nobody has been displaced

## Main results

* `Tracked.step`, `Tracked.accounted_step`: one move
* `Tracked.sole_iff`: when everybody is inside
-/

namespace Handover

/-- How far somebody has come. -/
inductive Phase where
  | away
  /-- Has emptied the slot, and evicts who was in it. -/
  | evicting (old : ℕ)
  | waiting
  | admitted
  /-- Has moved in, and may have lost its place again. -/
  | inside
  deriving DecidableEq

@[ext] structure Slot where
  entry : Option ℕ
  phase : ℕ → Phase
  /-- Those who have been admitted. -/
  admitted : List ℕ
  /-- Those who have been evicted. -/
  evicted : List ℕ

inductive Move where
  | come (n : ℕ)
  /-- The eviction by `n` is over. -/
  | evict (n : ℕ)
  | letIn (n : ℕ)
  | moveIn (n : ℕ)

def Slot.setPhase (s : Slot) (n : ℕ) (p : Phase) : Slot :=
  { s with phase := Function.update s.phase n p }

def step (s : Slot) : Move → Option Slot
  | .come n =>
    match s.phase n, s.entry with
    | .away, none => some (s.setPhase n .waiting)
    | .away, some old => some { s.setPhase n (.evicting old) with entry := none }
    | _, _ => none
  | .evict n =>
    match s.phase n with
    | .evicting old => some { s.setPhase n .waiting with evicted := s.evicted ++ [old] }
    | _ => none
  | .letIn n =>
    match s.phase n with
    | .waiting => some { s.setPhase n .admitted with admitted := s.admitted ++ [n] }
    | _ => none
  | .moveIn n =>
    match s.phase n with
    | .admitted => some { s.setPhase n .inside with entry := some n }
    | _ => none

/-- Who moves in finds the slot empty. -/
def Vacant (s : Slot) : Move → Prop
  | .moveIn _ => s.entry = none
  | _ => True

/-- Each phase belongs to what is recorded. -/
structure Tracked (s : Slot) : Prop where
  evicting : ∀ n x, s.phase n = .evicting x → s.phase x = .inside
  evicted : ∀ x ∈ s.evicted, s.phase x = .inside
  admitted : ∀ x, x ∈ s.admitted ↔ s.phase x = .admitted ∨ s.phase x = .inside
  inside : ∀ x, s.entry = some x → s.phase x = .inside
  /-- Nobody evicts who is in the slot. -/
  kept : ∀ x, s.entry = some x → x ∉ s.evicted ∧ ∀ n, s.phase n ≠ .evicting x
  /-- While the slot is empty, somebody is on the way, unless nobody has come yet. -/
  onTheWay : s.entry = none → (∀ n, s.phase n = .away) ∨
    ∃ n, s.phase n ≠ .away ∧ s.phase n ≠ .inside

/-- Nobody has been displaced: who was admitted is evicted or being evicted, or in the slot, or
about to move in. -/
def Accounted (s : Slot) : Prop :=
  ∀ x ∈ s.admitted, x ∈ s.evicted ∨ (∃ n, s.phase n = .evicting x) ∨ s.entry = some x ∨
    s.phase x = .admitted

/-- Everybody who has come is inside. -/
def Settled (s : Slot) : Prop := ∀ n, s.phase n = .away ∨ s.phase n = .inside

/-- The slot is taken, by the only member who was admitted and not evicted. -/
def Sole (s : Slot) : Prop :=
  s.entry.isSome ∧ ∀ x, x ∈ s.admitted ∧ x ∉ s.evicted ↔ s.entry = some x

/-! ### One move -/

section Moves

variable {s s' : Slot} {m : Move}

theorem step_come {n : ℕ} : step s (.come n) = some s' ↔ s.phase n = .away ∧
    (s.entry = none ∧ s' = s.setPhase n .waiting ∨
      ∃ old, s.entry = some old ∧ s' = { s.setPhase n (.evicting old) with entry := none }) := by
  rw [step]
  split <;> simp_all [eq_comm]

theorem step_evict {n : ℕ} : step s (.evict n) = some s' ↔ ∃ old, s.phase n = .evicting old ∧
    s' = { s.setPhase n .waiting with evicted := s.evicted ++ [old] } := by
  rw [step]
  split
  · next old hold => simp [hold, eq_comm]
  · next hnone =>
    refine iff_of_false (Option.some_ne_none _ ∘ Eq.symm) ?_
    rintro ⟨old, hold, -⟩
    exact hnone old hold

theorem step_letIn {n : ℕ} : step s (.letIn n) = some s' ↔ s.phase n = .waiting ∧
    s' = { s.setPhase n .admitted with admitted := s.admitted ++ [n] } := by
  rw [step]
  split <;> simp_all [eq_comm]

theorem step_moveIn {n : ℕ} : step s (.moveIn n) = some s' ↔ s.phase n = .admitted ∧
    s' = { s.setPhase n .inside with entry := some n } := by
  rw [step]
  split <;> simp_all [eq_comm]

/-- One phase changes, and nobody who is inside goes away again. -/
theorem step_phase (h : step s m = some s') :
    ∃ n p, s.phase n ≠ .inside ∧ s'.phase = Function.update s.phase n p := by
  cases m with
  | come n =>
    obtain ⟨hn, ⟨-, rfl⟩ | ⟨old, -, rfl⟩⟩ := step_come.mp h
    · exact ⟨n, .waiting, by simp [hn], rfl⟩
    · exact ⟨n, .evicting old, by simp [hn], rfl⟩
  | evict n =>
    obtain ⟨old, hn, rfl⟩ := step_evict.mp h
    exact ⟨n, .waiting, by simp [hn], rfl⟩
  | letIn n =>
    obtain ⟨hn, rfl⟩ := step_letIn.mp h
    exact ⟨n, .admitted, by simp [hn], rfl⟩
  | moveIn n =>
    obtain ⟨hn, rfl⟩ := step_moveIn.mp h
    exact ⟨n, .inside, by simp [hn], rfl⟩

theorem inside_step (h : step s m = some s') {x : ℕ} (hx : s.phase x = .inside) :
    s'.phase x = .inside := by
  obtain ⟨n, p, hn, hphase⟩ := step_phase h
  have hne : x ≠ n := fun heq => hn (heq ▸ hx)
  rw [hphase, Function.update_of_ne hne, hx]

/-- What is recorded of those who are inside stays true; the newcomer that takes the step is on the
way before it, and after it on the way or in the slot. -/
theorem Tracked.step (ht : Tracked s) (h : step s m = some s') : Tracked s' := by
  have hinside : ∀ x, s.phase x = .inside → s'.phase x = .inside := fun x => inside_step h
  obtain ⟨hevicting, hevicted, hadmitted, hentered, hkept, honTheWay⟩ := ht
  cases m with
  | come n =>
    obtain ⟨hn, ⟨hentry, rfl⟩ | ⟨old, hentry, rfl⟩⟩ := step_come.mp h
    all_goals simp only [Slot.setPhase] at hinside ⊢
    · refine ⟨?_, ?_, ?_, ?_, ?_, fun _ => Or.inr ⟨n, by simp, by simp⟩⟩
      all_goals grind
    · have hold : s.phase old = .inside := hentered old hentry
      refine ⟨?_, ?_, ?_, ?_, ?_, fun _ => Or.inr ⟨n, by simp, by simp⟩⟩
      all_goals grind
  | evict n =>
    obtain ⟨old, hn, rfl⟩ := step_evict.mp h
    have hold : s.phase old = .inside := hevicting n old hn
    -- the newcomer that evicts `old` has taken its entry
    have hgone : ∀ x, s.entry = some x → x ≠ old := fun x hx heq => (hkept x hx).2 n (heq ▸ hn)
    simp only [Slot.setPhase] at hinside ⊢
    refine ⟨?_, ?_, ?_, ?_, ?_, fun _ => Or.inr ⟨n, by simp, by simp⟩⟩
    all_goals grind
  | letIn n =>
    obtain ⟨hn, rfl⟩ := step_letIn.mp h
    simp only [Slot.setPhase] at hinside ⊢
    refine ⟨?_, ?_, ?_, ?_, ?_, fun _ => Or.inr ⟨n, by simp, by simp⟩⟩
    all_goals grind
  | moveIn n =>
    obtain ⟨hn, rfl⟩ := step_moveIn.mp h
    simp only [Slot.setPhase] at hinside ⊢
    refine ⟨?_, ?_, ?_, ?_, ?_, by simp⟩
    all_goals grind

/-- **One move** displaces somebody exactly if it is a move into a slot that is taken. -/
theorem Tracked.accounted_step (ht : Tracked s) (h : Handover.step s m = some s') :
    Accounted s' ↔ Accounted s ∧ Vacant s m := by
  have hinside : ∀ x, s.phase x = .inside → s'.phase x = .inside := fun x => inside_step h
  obtain ⟨hevicting, hevicted, hadmitted, hentered, hkept, honTheWay⟩ := ht
  cases m with
  | come n =>
    obtain ⟨hn, ⟨hentry, rfl⟩ | ⟨old, hentry, rfl⟩⟩ := step_come.mp h
    all_goals simp only [Slot.setPhase, Accounted, Vacant, and_true] at hinside ⊢
    · refine forall₂_congr fun x hx => ?_
      grind
    · refine forall₂_congr fun x hx => ?_
      grind
  | evict n =>
    obtain ⟨old, hn, rfl⟩ := step_evict.mp h
    simp only [Slot.setPhase, Accounted, Vacant, and_true] at hinside ⊢
    refine forall₂_congr fun x hx => ?_
    grind
  | letIn n =>
    obtain ⟨hn, rfl⟩ := step_letIn.mp h
    simp only [Slot.setPhase, Accounted, Vacant, and_true] at hinside ⊢
    grind
  | moveIn n =>
    obtain ⟨hn, rfl⟩ := step_moveIn.mp h
    simp only [Slot.setPhase, Accounted, Vacant] at hinside ⊢
    constructor
    · intro hacc
      have hvacant : s.entry = none := by
        -- who is in the slot now would be displaced
        by_contra hentry
        obtain ⟨x, hx⟩ := Option.ne_none_iff_exists'.mp hentry
        have hplace := hacc x ((hadmitted x).mpr (Or.inr (hentered x hx)))
        grind
      refine ⟨fun x hx => ?_, hvacant⟩
      have hplace := hacc x hx
      grind
    · rintro ⟨hacc, hentry⟩ x hx
      have hplace := hacc x hx
      grind

/-- **When everybody is inside**, the one in the slot is the only one left if and only if nobody has
been displaced. -/
theorem Tracked.sole_iff (ht : Tracked s) (hs : Settled s) (hcame : ∃ n, s.phase n ≠ .away) :
    Sole s ↔ Accounted s := by
  have hentry : s.entry.isSome := by
    by_contra hnone
    obtain ⟨n, hn⟩ := hcame
    obtain haway | ⟨n', hn', hout⟩ := ht.onTheWay (Option.not_isSome_iff_eq_none.mp hnone)
    · exact hn (haway n)
    · exact (hs n').elim hn' hout
  constructor
  · rintro ⟨-, hsole⟩ x hx
    by_cases hx' : x ∈ s.evicted
    · exact Or.inl hx'
    · exact Or.inr (Or.inr (Or.inl ((hsole x).mp ⟨hx, hx'⟩)))
  · refine fun hacc => ⟨hentry, fun x => ⟨fun ⟨hx, hx'⟩ => ?_, fun hx => ?_⟩⟩
    · obtain hx'' | ⟨n, hn⟩ | hx'' | hx'' := hacc x hx
      · exact absurd hx'' hx'
      · exact absurd hn (by obtain h | h := hs n <;> simp [h])
      · exact hx''
      · exact absurd hx'' (by obtain h | h := hs x <;> simp [h])
    · exact ⟨(ht.admitted x).mpr (Or.inr (ht.inside x hx)), (ht.kept x hx).1⟩

end Moves

end Handover
