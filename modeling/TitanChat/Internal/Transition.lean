import Mathlib.Data.Option.Basic
import Mathlib.Data.List.Basic
import Mathlib.Data.Nat.Init
import Mathlib.Order.Defs.Unbundled

/-!
# Runs of a labelled transition system

A system is a function `step : σ → ι → Option σ`. The label carries every choice that the system
itself does not make: which task runs, how an awaited call ends, which request arrives. So a run
is a list of labels, and a statement about every interleaving is a statement about every list.

## Two ways of speaking about runs

`Reachable` forgets how a state was reached and is what a safety property quantifies over.
`Always` and `Guarded` keep the schedule: the first speaks about the states that one schedule
passes through, the second about the steps it takes. They are compared by `always_iff_guarded`,
which is how an invariant that a system keeps only under a condition is stated exactly: the
invariant holds throughout a run if and only if every step of that run met the condition.

A label that is not enabled ends the run. `Always` and `Guarded` are then about the steps that
were taken.

## Main results

* `Reachable.invariant`: what holds initially and is preserved by every step is always true
* `reachable_of_run`: the end of a schedule is reachable
* `Reachable.exists_of_descent`: what a run can be steered to, by a measure
* `length_add_rank_le`: how long a run can be
* `always_of_guarded`: an invariant preserved by guarded steps
* `always_iff_guarded`: the exact form, for an invariant that an unguarded step breaks at once
* `end_iff_guarded`: the same for the end of a run, where what is broken stays broken
* `along_iff_guarded`: the same for a relation between the states of a run
-/

namespace Transition

variable {σ ι : Type*} {step : σ → ι → Option σ}

/-- Take the labels of a schedule in order. -/
def run (step : σ → ι → Option σ) : σ → List ι → Option σ
  | s, [] => some s
  | s, a :: as => (step s a).bind fun s' => run step s' as

@[simp] theorem run_nil (s : σ) : run step s [] = some s := rfl

theorem run_append (s : σ) (as bs : List ι) :
    run step s (as ++ bs) = (run step s as).bind fun s' => run step s' bs := by
  induction as generalizing s with
  | nil => rfl
  | cons a as ih => simp only [List.cons_append, run, ih, Option.bind_assoc]

/-! ### Reachable states -/

/-- The states that some schedule reaches from an initial state. -/
inductive Reachable (step : σ → ι → Option σ) (init : σ → Prop) : σ → Prop
  | start {s : σ} : init s → Reachable step init s
  | next {s s' : σ} {a : ι} : Reachable step init s → step s a = some s' →
      Reachable step init s'

/-- **The invariant rule.** -/
theorem Reachable.invariant {init I : σ → Prop} (h₀ : ∀ s, init s → I s)
    (hstep : ∀ s a s', I s → step s a = some s' → I s') {s : σ} (h : Reachable step init s) :
    I s := by
  induction h with
  | start hi => exact h₀ _ hi
  | next _ hs ih => exact hstep _ _ _ ih hs

theorem Reachable.run {init : σ → Prop} {s s' : σ} (h : Reachable step init s) {as : List ι}
    (hr : run step s as = some s') : Reachable step init s' := by
  induction as generalizing s with
  | nil => simp only [run_nil, Option.some.injEq] at hr; exact hr ▸ h
  | cons a as ih =>
    obtain ⟨t, ht, hr⟩ := Option.bind_eq_some_iff.mp hr
    exact ih (h.next ht) hr

theorem reachable_of_run {init : σ → Prop} {s s' : σ} (hs : init s) {as : List ι}
    (hr : run step s as = some s') : Reachable step init s' :=
  (Reachable.start hs).run hr

/-- A system with more steps reaches more states. -/
theorem Reachable.mono {step' : σ → ι → Option σ} {init : σ → Prop}
    (hle : ∀ s a s', step s a = some s' → step' s a = some s') {s : σ}
    (h : Reachable step init s) : Reachable step' init s := by
  induction h with
  | start hi => exact .start hi
  | next _ hs ih => exact ih.next (hle _ _ _ hs)

/-- **Descent.** If a run can always be continued so that a measure goes down until `P` holds, then
it can be continued to a state where `P` holds. -/
theorem Reachable.exists_of_descent {init P : σ → Prop} (μ : σ → ℕ)
    (hdown : ∀ s, Reachable step init s → ¬P s → ∃ s', Reachable step init s' ∧ μ s' < μ s)
    {s : σ} (h : Reachable step init s) : ∃ s', Reachable step init s' ∧ P s' := by
  induction hn : μ s using Nat.strong_induction_on generalizing s with
  | _ n ih =>
    by_cases hP : P s
    · exact ⟨s, h, hP⟩
    · obtain ⟨s', h', hlt⟩ := hdown s h hP
      exact ih (μ s') (hn ▸ hlt) h' rfl

/-- **Bounded runs.** If each step lowers a rank, but for those that `p` selects, which may raise it
by less than `k`, then a run is as long as its rank and these steps allow. -/
theorem length_add_rank_le {K : σ → Prop} {rank : σ → ℕ} {p : ι → Bool} {k : ℕ}
    (hK : ∀ s a s', K s → step s a = some s' → K s')
    (hrank : ∀ s a s', K s → step s a = some s' →
      rank s' + 1 ≤ rank s + if p a then k else 0) {s s' : σ} {as : List ι} (hs : K s)
    (hr : run step s as = some s') : as.length + rank s' ≤ rank s + k * as.countP p := by
  induction as generalizing s with
  | nil =>
    simp only [run_nil, Option.some.injEq] at hr
    simp [hr]
  | cons a as ih =>
    obtain ⟨t, ht, hr⟩ := Option.bind_eq_some_iff.mp hr
    have hone := hrank s a t hs ht
    have hrest := ih (hK s a t hs ht) hr
    rw [List.length_cons]
    cases hp : p a with
    | true =>
      rw [hp, if_pos rfl] at hone
      rw [List.countP_cons_of_pos hp, Nat.mul_add]
      omega
    | false =>
      rw [hp, if_neg Bool.false_ne_true] at hone
      rw [List.countP_cons_of_neg (Bool.eq_false_iff.mp hp)]
      omega

/-! ### Along one schedule -/

/-- `I` holds in every state that the schedule passes through, the first one included. -/
def Always (step : σ → ι → Option σ) (I : σ → Prop) : σ → List ι → Prop
  | s, [] => I s
  | s, a :: as => I s ∧ ∀ s', step s a = some s' → Always step I s' as

/-- `G` holds at every step that the schedule takes, of the state before the step. -/
def Guarded (step : σ → ι → Option σ) (G : σ → ι → Prop) : σ → List ι → Prop
  | _, [] => True
  | s, a :: as => ∀ s', step s a = some s' → G s a ∧ Guarded step G s' as

theorem Always.head {I : σ → Prop} {s : σ} {as : List ι} (h : Always step I s as) : I s := by
  cases as with
  | nil => exact h
  | cons a as => exact h.1

theorem Guarded.cons {G : σ → ι → Prop} {s s' : σ} {a : ι} {as : List ι} (hs : step s a = some s')
    (hG : G s a) (h : Guarded step G s' as) : Guarded step G s (a :: as) := by
  intro t ht
  obtain rfl := Option.some.inj (hs.symm.trans ht)
  exact ⟨hG, h⟩

/-- A guard that does not ask for the state. -/
theorem guarded_of_forall {G : σ → ι → Prop} {as : List ι} (h : ∀ a ∈ as, ∀ s, G s a) (s : σ) :
    Guarded step G s as := by
  induction as generalizing s with
  | nil => trivial
  | cons a as ih =>
    intro s' _
    exact ⟨h a List.mem_cons_self s, ih (fun b hb => h b (List.mem_cons_of_mem a hb)) s'⟩

theorem Always.imp {I J : σ → Prop} (hIJ : ∀ s, I s → J s) {s : σ} {as : List ι}
    (h : Always step I s as) : Always step J s as := by
  induction as generalizing s with
  | nil => exact hIJ _ h
  | cons a as ih => exact ⟨hIJ _ h.1, fun s' hs => ih (h.2 s' hs)⟩

theorem guarded_and {G H : σ → ι → Prop} {s : σ} {as : List ι} :
    Guarded step (fun s a => G s a ∧ H s a) s as ↔ Guarded step G s as ∧ Guarded step H s as := by
  induction as generalizing s with
  | nil => simp [Guarded]
  | cons a as ih =>
    simp only [Guarded, ih]
    constructor
    · exact fun h => ⟨fun s' hs => ⟨(h s' hs).1.1, (h s' hs).2.1⟩,
        fun s' hs => ⟨(h s' hs).1.2, (h s' hs).2.2⟩⟩
    · exact fun h s' hs => ⟨⟨(h.1 s' hs).1, (h.2 s' hs).1⟩, (h.1 s' hs).2, (h.2 s' hs).2⟩

/-- Two guards that agree in every state of a run are met together. -/
theorem Always.guarded_congr {I : σ → Prop} {G H : σ → ι → Prop}
    (hGH : ∀ s a, I s → (G s a ↔ H s a)) {s : σ} {as : List ι} (h : Always step I s as) :
    Guarded step G s as ↔ Guarded step H s as := by
  induction as generalizing s with
  | nil => exact Iff.rfl
  | cons a as ih =>
    exact forall_congr' fun s' => forall_congr' fun hs =>
      and_congr (hGH s a h.1) (ih (h.2 s' hs))

/-- Whether a schedule is guarded can be computed. -/
instance Guarded.decidable {G : σ → ι → Prop} [∀ s a, Decidable (G s a)] :
    ∀ (s : σ) (as : List ι), Decidable (Guarded step G s as)
  | _, [] => .isTrue trivial
  | s, a :: as =>
    match hs : step s a with
    | none => .isTrue fun s' hs' => absurd (hs.symm.trans hs').symm (Option.some_ne_none s')
    | some s' =>
      have : Decidable (Guarded step G s' as) := Guarded.decidable s' as
      decidable_of_iff (G s a ∧ Guarded step G s' as)
        ⟨fun h => .cons hs h.1 h.2, fun h => h s' hs⟩

/-- And so can whether something holds throughout. -/
instance Always.decidable {I : σ → Prop} [DecidablePred I] :
    ∀ (s : σ) (as : List ι), Decidable (Always step I s as)
  | s, [] => inferInstanceAs (Decidable (I s))
  | s, a :: as =>
    match hs : step s a with
    | none => decidable_of_iff (I s)
        ⟨fun h => ⟨h, fun s' hs' => absurd (hs.symm.trans hs').symm (Option.some_ne_none s')⟩,
          fun h => h.1⟩
    | some s' =>
      have : Decidable (Always step I s' as) := Always.decidable s' as
      decidable_of_iff (I s ∧ Always step I s' as)
        ⟨fun h => ⟨h.1, fun _ ht => Option.some.inj (hs.symm.trans ht) ▸ h.2⟩,
          fun h => ⟨h.1, h.2 s' hs⟩⟩

/-- A guard that holds in every state of a run is met by its steps. -/
theorem Always.guarded {I : σ → Prop} {G : σ → ι → Prop}
    (hG : ∀ s a s', I s → step s a = some s' → G s a) {s : σ} {as : List ι}
    (h : Always step I s as) : Guarded step G s as := by
  induction as generalizing s with
  | nil => trivial
  | cons a as ih => exact fun s' hs => ⟨hG s a s' h.1 hs, ih (h.2 s' hs)⟩

/-- What holds throughout a run holds where the run ends. -/
theorem Always.run {I : σ → Prop} {s s' : σ} {as : List ι} (h : Always step I s as)
    (hr : run step s as = some s') : I s' := by
  induction as generalizing s with
  | nil => simp only [run_nil, Option.some.injEq] at hr; exact hr ▸ h
  | cons a as ih =>
    obtain ⟨t, ht, hr⟩ := Option.bind_eq_some_iff.mp hr
    exact ih (h.2 t ht) hr

/-- An invariant that guarded steps preserve holds throughout a guarded run. -/
theorem always_of_guarded {I : σ → Prop} {G : σ → ι → Prop}
    (hstep : ∀ s a s', I s → G s a → step s a = some s' → I s') {s : σ} {as : List ι}
    (hs : I s) (hg : Guarded step G s as) : Always step I s as := by
  induction as generalizing s with
  | nil => exact hs
  | cons a as ih =>
    refine ⟨hs, fun s' hs' => ?_⟩
    obtain ⟨hG, hg'⟩ := hg s' hs'
    exact ih (hstep s a s' hs hG hs') hg'

/-- The invariant rule, along a schedule. -/
theorem always_of_invariant {I : σ → Prop} (hstep : ∀ s a s', I s → step s a = some s' → I s')
    {s : σ} (hs : I s) (as : List ι) : Always step I s as := by
  induction as generalizing s with
  | nil => exact hs
  | cons a as ih => exact ⟨hs, fun s' hs' => ih (hstep s a s' hs hs')⟩

/-- The same along a schedule on which `J` always holds, before a step and after it. -/
theorem Always.invariant {I J : σ → Prop}
    (hstep : ∀ s a s', I s → J s → J s' → step s a = some s' → I s') {s : σ} {as : List ι}
    (hs : I s) (hJ : Always step J s as) : Always step (fun s => I s ∧ J s) s as := by
  induction as generalizing s with
  | nil => exact ⟨hs, hJ⟩
  | cons a as ih =>
    refine ⟨⟨hs, hJ.1⟩, fun s' hs' => ?_⟩
    have hJ' := hJ.2 s' hs'
    exact ih (hstep s a s' hs hJ.1 hJ'.head hs') hJ'

/-- **The exact rule.** `K` is kept by every step; `I` is kept by a step precisely when the guard
held before it. Then `I` holds throughout a run if and only if each of its steps was guarded. -/
theorem always_iff_guarded {K I : σ → Prop} {G : σ → ι → Prop}
    (hK : ∀ s a s', K s → step s a = some s' → K s')
    (hI : ∀ s a s', K s → I s → step s a = some s' → (I s' ↔ G s a)) {s : σ} {as : List ι}
    (hs : K s) (hi : I s) : Always step I s as ↔ Guarded step G s as := by
  induction as generalizing s with
  | nil => exact iff_of_true hi trivial
  | cons a as ih =>
    constructor
    · rintro ⟨-, h⟩ s' hs'
      have hi' : I s' := (h s' hs').head
      exact ⟨(hI s a s' hs hi hs').mp hi', (ih (hK s a s' hs hs') hi').mp (h s' hs')⟩
    · refine fun h => ⟨hi, fun s' hs' => ?_⟩
      obtain ⟨hG, hg⟩ := h s' hs'
      exact (ih (hK s a s' hs hs') ((hI s a s' hs hi hs').mpr hG)).mpr hg

/-- **The exact rule for the end of a run.** `K` is kept by every step; `I` holds after a step
precisely when it held before and the guard did. Then `I` holds at the end of a run if and only if
each of its steps was guarded. -/
theorem end_iff_guarded {K I : σ → Prop} {G : σ → ι → Prop}
    (hK : ∀ s a s', K s → step s a = some s' → K s')
    (hI : ∀ s a s', K s → step s a = some s' → (I s' ↔ I s ∧ G s a)) {s s' : σ} {as : List ι}
    (hs : K s) (hr : run step s as = some s') : I s' ↔ I s ∧ Guarded step G s as := by
  induction as generalizing s with
  | nil =>
    simp only [run_nil, Option.some.injEq] at hr
    exact hr ▸ (and_iff_left trivial).symm
  | cons a as ih =>
    obtain ⟨t, ht, hr⟩ := Option.bind_eq_some_iff.mp hr
    have hguarded : Guarded step G s (a :: as) ↔ G s a ∧ Guarded step G t as := by
      constructor
      · exact fun h => h t ht
      · intro h u hu
        rwa [← Option.some.inj (ht.symm.trans hu)]
    rw [ih (hK s a t hs ht) hr, hI s a t hs ht, hguarded, and_assoc]

/-! ### Two states of one schedule -/

/-- `R` relates each state that the schedule passes through to each later one. -/
def Along (step : σ → ι → Option σ) (R : σ → σ → Prop) : σ → List ι → Prop
  | _, [] => True
  | s, a :: as => ∀ s', step s a = some s' → Always step (R s) s' as ∧ Along step R s' as

/-- What is related to the first of some states is related to all of them. -/
theorem Along.always {R : σ → σ → Prop} [IsTrans σ R] {s s' : σ} {as : List ι}
    (h : Along step R s' as) (hs : R s s') : Always step (R s) s' as := by
  cases as with
  | nil => exact hs
  | cons a as =>
    exact ⟨hs, fun t ht => (h t ht).1.imp fun u hu => IsTrans.trans s s' u hs hu⟩

/-- Along the rest of a schedule. -/
theorem Along.run {R : σ → σ → Prop} {s s' : σ} {as bs : List ι} (h : Along step R s (as ++ bs))
    (hr : run step s as = some s') : Along step R s' bs := by
  induction as generalizing s with
  | nil => simp only [run_nil, Option.some.injEq] at hr; exact hr ▸ h
  | cons a as ih =>
    obtain ⟨t, ht, hr⟩ := Option.bind_eq_some_iff.mp hr
    exact ih (h t ht).2 hr

theorem Along.rel {R : σ → σ → Prop} {s s' : σ} {a : ι} {as : List ι}
    (h : Along step R s (a :: as)) (hr : Transition.run step s (a :: as) = some s') : R s s' := by
  obtain ⟨t, ht, hr⟩ := Option.bind_eq_some_iff.mp hr
  exact (h t ht).1.run hr

/-- **The exact rule for a relation** that a step establishes precisely when the guard held. -/
theorem along_iff_guarded {K : σ → Prop} {R : σ → σ → Prop} [IsTrans σ R] {G : σ → ι → Prop}
    (hK : ∀ s a s', K s → step s a = some s' → K s')
    (hR : ∀ s a s', K s → step s a = some s' → (R s s' ↔ G s a)) {s : σ} {as : List ι}
    (hs : K s) : Along step R s as ↔ Guarded step G s as := by
  induction as generalizing s with
  | nil => exact Iff.rfl
  | cons a as ih =>
    refine forall_congr' fun s' => forall_congr' fun hs' => ?_
    rw [← ih (hK s a s' hs hs'), ← hR s a s' hs hs']
    exact ⟨fun h => ⟨h.1.head, h.2⟩, fun h => ⟨h.2.always h.1, h.2⟩⟩

end Transition
