import Mathlib.Logic.Function.Basic
import TitanChat.Internal.Transition

/-!
# Tasks that hold locks

A task holds one lock at a time or none, and a lock knows only whether it is held. The two agree if
each lock has one holder at most and the locks that are held are those with a holder. A task that
goes on keeps what it holds, takes a lock that is free or gives back the one it holds; each of these
keeps the agreement, whatever else the tasks do.

For progress, a task that holds a lock is given some work, which its own steps use up and the other
tasks' do not add to. So it can only take so many more steps before it has given its lock back, in
every order of the tasks.

## Main definitions

* `Mutex`: holders and locks agree
* `Turn`: what a task does with its lock

## Main results

* `Mutex.turn`: each turn keeps the agreement
* `Mutex.free_or_held`: a lock is free, or one task holds it
* `countP_add_work_le`: a bound on the steps of one task, in any run
-/

variable {τ κ : Type*}

/-- Each lock has one holder at most, and those that are held have one. -/
structure Mutex (holds : τ → Option κ) (locked : κ → Bool) : Prop where
  unique : ∀ {t u : τ} {l : κ}, holds t = some l → holds u = some l → t = u
  locked_iff : ∀ l, locked l = true ↔ ∃ t, holds t = some l

namespace Mutex

/-- What a task does with its lock: from what it holds to what it holds then. -/
inductive Turn [DecidableEq κ] (locked : κ → Bool) : Option κ → Option κ → (κ → Bool) → Prop
  | keep (o : Option κ) : Turn locked o o locked
  | acquire {l : κ} (free : locked l = false) :
      Turn locked none (some l) (Function.update locked l true)
  | release (l : κ) : Turn locked (some l) none (Function.update locked l false)

variable {holds : τ → Option κ} {locked locked' : κ → Bool}

theorem not_holds (h : Mutex holds locked) {l : κ} (hfree : locked l = false) (t : τ) :
    holds t ≠ some l := by
  intro ht
  have hlocked := (h.locked_iff l).mpr ⟨t, ht⟩
  exact Bool.false_ne_true (hfree.symm.trans hlocked)

/-- **A turn** keeps holders and locks in agreement. -/
theorem turn [DecidableEq τ] [DecidableEq κ] (h : Mutex holds locked) {t : τ} {o : Option κ}
    (hturn : Turn locked (holds t) o locked') : Mutex (Function.update holds t o) locked' := by
  generalize hhold : holds t = before at hturn
  cases hturn with
  | keep =>
    rw [← hhold, Function.update_eq_self]
    exact h
  | @acquire l free =>
    have hother : ∀ u, Function.update holds t (some l) u = some l → u = t := by
      intro u hu
      by_contra hne
      rw [Function.update_of_ne hne] at hu
      exact h.not_holds free u hu
    constructor
    · intro u v l' hu hv
      by_cases hl : l' = l
      · subst hl
        exact (hother u hu).trans (hother v hv).symm
      · have hne : ∀ w, Function.update holds t (some l) w = some l' → holds w = some l' := by
          intro w hw
          rw [Function.update_apply] at hw
          split at hw
          · exact absurd (Option.some.inj hw).symm hl
          · exact hw
        exact h.unique (hne u hu) (hne v hv)
    · intro l'
      rw [Function.update_apply]
      split
      · next hl =>
        subst hl
        exact iff_of_true rfl ⟨t, Function.update_self ..⟩
      · next hl =>
        rw [h.locked_iff]
        refine exists_congr fun u => ?_
        rw [Function.update_apply]
        split
        · next hu =>
          subst hu
          rw [hhold]
          exact iff_of_false (by simp) fun heq => hl (Option.some.inj heq).symm
        · exact Iff.rfl
  | release l =>
    have hiff : ∀ u l', Function.update holds t none u = some l' ↔
        holds u = some l' ∧ l' ≠ l := by
      intro u l'
      rw [Function.update_apply]
      split
      · next hu =>
        subst hu
        rw [hhold]
        exact iff_of_false (by simp) fun heq => heq.2 (Option.some.inj heq.1).symm
      · next hu =>
        refine (and_iff_left_of_imp fun hu' heq => hu ?_).symm
        exact h.unique (heq ▸ hu') hhold
    constructor
    · exact fun hu hv => h.unique ((hiff _ _).mp hu).1 ((hiff _ _).mp hv).1
    · intro l'
      rw [exists_congr fun u => hiff u l', exists_and_right, ← h.locked_iff, Function.update_apply]
      split
      · next hl => exact iff_of_false (by simp) fun heq => heq.2 hl
      · next hl => exact (and_iff_left hl).symm

/-- A lock is free, or there is one task that holds it. -/
theorem free_or_held (h : Mutex holds locked) (l : κ) :
    locked l = false ∨ ∃ u, holds u = some l ∧ ∀ v, holds v = some l → v = u := by
  cases hl : locked l with
  | false => exact Or.inl rfl
  | true =>
    obtain ⟨u, hu⟩ := (h.locked_iff l).mp hl
    exact Or.inr ⟨u, hu, fun v hv => h.unique hv hu⟩

/-- A lock that no task holds is free. -/
theorem free_of_forall (h : Mutex holds locked) {l : κ} (hl : ∀ u, holds u ≠ some l) :
    locked l = false := by
  refine Bool.eq_false_iff.mpr fun hlocked => ?_
  obtain ⟨u, hu⟩ := (h.locked_iff l).mp hlocked
  exact hl u hu

end Mutex

namespace Transition

variable {σ ι : Type*} {step : σ → ι → Option σ}

/-- **Work.** The labels that `p` selects use up some work and the others do not add to it. Then a
run has as many of them as there was work, less what is left. -/
theorem countP_add_work_le {K : σ → Prop} (work : σ → ℕ) {p : ι → Bool}
    (hK : ∀ s a s', K s → step s a = some s' → K s')
    (hwork : ∀ s a s', K s → step s a = some s' →
      work s' + (if p a then 1 else 0) ≤ work s) {s s' : σ} {as : List ι} (hs : K s)
    (hr : run step s as = some s') : as.countP p + work s' ≤ work s := by
  induction as generalizing s with
  | nil =>
    simp only [run_nil, Option.some.injEq] at hr
    simp [hr]
  | cons a as ih =>
    obtain ⟨t, ht, hr⟩ := Option.bind_eq_some_iff.mp hr
    have hone := hwork s a t hs ht
    have hrest := ih (hK s a t hs ht) hr
    rw [List.countP_cons]
    omega

end Transition
