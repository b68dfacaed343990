import Mathlib.Order.Defs.Unbundled

/-!
# Effects that may fail

A computation reads and changes a state and ends with a value or with an error. What it did before
an error stays done: there is no rollback, as in a handler whose third call to a database raises
after the first two have taken effect.

`gather` runs several computations of which none waits for another. All of them run, also after one
has failed, and then the first error is raised.

## Main definitions

* `Effect`, `Effect.fail`, `Effect.read`, `Effect.modify`, `Effect.gather`
* `Effect.Keeps`: a relation between the state before and the state after

## Main results

* `bind_eq_ok`: a sequence that ends well
* `keeps_bind`, `keeps_gather`: a reflexive and transitive relation is kept by a computation that is
  put together from computations that keep it
-/

/-- A computation with errors in `ε` and a state in `σ`. -/
structure Effect (ε σ α : Type) where
  of ::
  run : σ → Except ε α × σ

namespace Effect

variable {ε σ α β : Type}

instance : Monad (Effect ε σ) where
  pure a := of fun s => (.ok a, s)
  bind m f := of fun s =>
    match m.run s with
    | (.ok a, s') => (f a).run s'
    | (.error e, s') => (.error e, s')

/-- Raise an error. -/
def fail (e : ε) : Effect ε σ α := of fun s => (.error e, s)

/-- Read from the state. -/
def read (f : σ → α) : Effect ε σ α := of fun s => (.ok (f s), s)

/-- Change the state. -/
def modify (f : σ → σ) : Effect ε σ Unit := of fun s => (.ok (), f s)

/-- Run all of them, then raise the first error, if any. -/
def gather : List (Effect ε σ Unit) → Effect ε σ Unit
  | [] => pure ()
  | m :: ms => of fun s =>
    let (r, s') := m.run s
    let (rs, s'') := (gather ms).run s'
    match r with
    | .ok _ => (rs, s'')
    | .error e => (.error e, s'')

@[simp] theorem run_pure (a : α) (s : σ) : (pure a : Effect ε σ α).run s = (.ok a, s) := rfl

@[simp] theorem run_fail (e : ε) (s : σ) : (fail e : Effect ε σ α).run s = (.error e, s) := rfl

@[simp] theorem run_read (f : σ → α) (s : σ) : (read f : Effect ε σ α).run s = (.ok (f s), s) :=
  rfl

@[simp] theorem run_modify (f : σ → σ) (s : σ) :
    (modify f : Effect ε σ Unit).run s = (.ok (), f s) := rfl

theorem run_bind (m : Effect ε σ α) (f : α → Effect ε σ β) (s : σ) :
    (m >>= f).run s = match m.run s with
      | (.ok a, s') => (f a).run s'
      | (.error e, s') => (.error e, s') := rfl

theorem pure_bind (a : α) (f : α → Effect ε σ β) : pure a >>= f = f a := rfl

theorem bind_pure (m : Effect ε σ α) : m >>= pure = m := by
  have hrun : (m >>= pure).run = m.run := by
    funext s
    rw [run_bind]
    rcases m.run s with ⟨r, s'⟩
    cases r <;> rfl
  cases m
  exact congrArg of hrun

theorem run_bind_of_ok {m : Effect ε σ α} {f : α → Effect ε σ β} {s s' : σ} {a : α}
    (h : m.run s = (.ok a, s')) : (m >>= f).run s = (f a).run s' := by
  rw [run_bind, h]

theorem run_bind_of_error {m : Effect ε σ α} {f : α → Effect ε σ β} {s s' : σ} {e : ε}
    (h : m.run s = (.error e, s')) : (m >>= f).run s = (.error e, s') := by
  rw [run_bind, h]

/-- A sequence that ends well has two halves that do. -/
theorem bind_eq_ok {m : Effect ε σ α} {f : α → Effect ε σ β} {s s'' : σ} {b : β} :
    (m >>= f).run s = (.ok b, s'') ↔
      ∃ a s', m.run s = (.ok a, s') ∧ (f a).run s' = (.ok b, s'') := by
  rw [run_bind]
  rcases hm : m.run s with ⟨r, s'⟩
  cases r with
  | error e => simp
  | ok a => exact ⟨fun h => ⟨a, s', rfl, h⟩, by rintro ⟨a, s', ⟨rfl, rfl⟩, h⟩; exact h⟩

theorem then_eq_ok {m : Effect ε σ Unit} {f : Unit → Effect ε σ β} {s s'' : σ} {b : β} :
    (m >>= f).run s = (.ok b, s'') ↔
      ∃ s', m.run s = (.ok (), s') ∧ (f ()).run s' = (.ok b, s'') := by
  rw [bind_eq_ok]
  exact ⟨fun ⟨_, h⟩ => h, fun h => ⟨(), h⟩⟩

/-- How a sequence ends, without the states in between. -/
theorem ok_bind {m : Effect ε σ α} {f : α → Effect ε σ β} {s : σ} {b : β} :
    ((m >>= f).run s).1 = .ok b ↔
      ∃ a, (m.run s).1 = .ok a ∧ ((f a).run (m.run s).2).1 = .ok b := by
  rw [run_bind]
  rcases m.run s with ⟨r, s'⟩
  cases r with
  | error e => simp
  | ok a => simp

/-- A sequence whose first half has no value. -/
theorem ok_then {m : Effect ε σ Unit} {f : Unit → Effect ε σ β} {s : σ} {b : β} :
    ((m >>= f).run s).1 = .ok b ↔
      (m.run s).1 = .ok () ∧ ((f ()).run (m.run s).2).1 = .ok b := by
  rw [ok_bind]
  exact ⟨fun ⟨_, h⟩ => h, fun h => ⟨(), h⟩⟩

theorem bind_assoc {γ : Type} (m : Effect ε σ α) (f : α → Effect ε σ β) (g : β → Effect ε σ γ) :
    m >>= f >>= g = m >>= fun a => f a >>= g := by
  refine congrArg of (funext fun s => ?_)
  show ((m >>= f) >>= g).run s = (m >>= fun a => f a >>= g).run s
  rw [run_bind, run_bind, run_bind]
  rcases m.run s with ⟨r, s'⟩
  cases r <;> rfl

@[simp] theorem gather_nil : (gather [] : Effect ε σ Unit) = pure () := rfl

/-- The rest runs also after an error. -/
theorem run_gather_cons (m : Effect ε σ Unit) (ms : List (Effect ε σ Unit)) (s : σ) :
    (gather (m :: ms)).run s =
      (match (m.run s).1 with
        | .ok _ => ((gather ms).run (m.run s).2).1
        | .error e => .error e, ((gather ms).run (m.run s).2).2) := by
  simp only [gather]
  split <;> simp_all

theorem run_gather_cons_of_ok {m : Effect ε σ Unit} {ms : List (Effect ε σ Unit)} {s s' : σ}
    (h : m.run s = (.ok (), s')) : (gather (m :: ms)).run s = (gather ms).run s' := by
  rw [run_gather_cons, h]

theorem run_gather_cons_snd (m : Effect ε σ Unit) (ms : List (Effect ε σ Unit)) (s : σ) :
    ((gather (m :: ms)).run s).2 = ((gather ms).run (m.run s).2).2 := by
  rw [run_gather_cons]

theorem ok_gather_cons {m : Effect ε σ Unit} {ms : List (Effect ε σ Unit)} {s : σ} :
    ((gather (m :: ms)).run s).1 = .ok () ↔
      (m.run s).1 = .ok () ∧ ((gather ms).run (m.run s).2).1 = .ok () := by
  rw [run_gather_cons]
  cases (m.run s).1 with
  | error e => simp
  | ok u => simp

/-! ### Relations that are kept -/

/-- The state after the computation is related to the state before, however it ends. -/
def Keeps (R : σ → σ → Prop) (m : Effect ε σ α) : Prop := ∀ s, R s (m.run s).2

section Keeps

variable {R : σ → σ → Prop}

theorem Keeps.of_run {m : Effect ε σ α} (h : Keeps R m) {s s' : σ} {r : Except ε α}
    (hrun : m.run s = (r, s')) : R s s' := by
  have hs := h s
  rwa [hrun] at hs

theorem Keeps.mono {S : σ → σ → Prop} {m : Effect ε σ α} (h : Keeps R m)
    (hRS : ∀ s s', R s s' → S s s') : Keeps S m := fun s => hRS _ _ (h s)

theorem keeps_pure [Std.Refl R] (a : α) : Keeps R (pure a : Effect ε σ α) := fun s => refl s

theorem keeps_fail [Std.Refl R] (e : ε) : Keeps R (fail e : Effect ε σ α) := fun s => refl s

theorem keeps_read [Std.Refl R] (f : σ → α) : Keeps R (read f : Effect ε σ α) := fun s => refl s

theorem keeps_modify {f : σ → σ} (h : ∀ s, R s (f s)) : Keeps R (modify f : Effect ε σ Unit) := h

/-- **Sequence.** -/
theorem keeps_bind [IsTrans σ R] {m : Effect ε σ α} {f : α → Effect ε σ β} (hm : Keeps R m)
    (hf : ∀ a, Keeps R (f a)) : Keeps R (m >>= f) := by
  intro s
  have hms := hm s
  rw [run_bind]
  rcases hr : m.run s with ⟨r, s'⟩
  rw [hr] at hms
  cases r with
  | error e => exact hms
  | ok a => exact IsTrans.trans _ _ _ hms (hf a s')

/-- What comes after the first half, whether or not it is run. -/
theorem after_bind [Std.Refl R] {m : Effect ε σ α} {f : α → Effect ε σ β} (hf : ∀ a, Keeps R (f a))
    (s : σ) : R (m.run s).2 ((m >>= f).run s).2 := by
  rw [run_bind]
  rcases m.run s with ⟨r, s'⟩
  cases r with
  | error e => exact refl s'
  | ok a => exact hf a s'

/-- What follows a computation that never ends well is not run. -/
theorem keeps_bind_of_error {m : Effect ε σ α} {f : α → Effect ε σ β} (hm : Keeps R m)
    (herror : ∀ s a, (m.run s).1 ≠ .ok a) : Keeps R (m >>= f) := by
  intro s
  have hms := hm s
  have hes := herror s
  rw [run_bind]
  rcases hr : m.run s with ⟨r, s'⟩
  rw [hr] at hms hes
  cases r with
  | error e => exact hms
  | ok a => exact absurd rfl (hes a)

/-- **Concurrency.** -/
theorem keeps_gather [Std.Refl R] [IsTrans σ R] {ms : List (Effect ε σ Unit)}
    (h : ∀ m ∈ ms, Keeps R m) : Keeps R (gather ms) := by
  induction ms with
  | nil => exact keeps_pure ()
  | cons m ms ih =>
    intro s
    rw [run_gather_cons]
    exact IsTrans.trans _ _ _ (h m (List.mem_cons_self ..) s)
      (ih (fun m' hm' => h m' (List.mem_cons_of_mem _ hm')) (m.run s).2)

end Keeps

end Effect
