import Mathlib.Logic.Function.Basic
import TitanChat.Internal.Replay
import TitanChat.Internal.Transition

/-!
# Several writers of one store

Some writers work side by side. Each has a state of its own and takes steps, and with each step it
may write to a store that all of them share. A schedule says whose turn it is. What the writers do
to their own states does not depend on the schedule, but what they do to the store may.

It does not, if the writes have keys, if writes of different keys commute and if each key is written
by one writer only. Then the store depends on the writes of each key and on their order, and on
nothing else.

## Main definitions

* `emits`: what a writer writes in some steps of its own
* `step`: one step of one writer
* `SameByKey`: the writes of each key are the same, and in the same order
* `ofKey`: the writes of a key, among some that are labelled with their keys

## Main results

* `exists_of_run`: a run of the writers, seen by each of them
* `perform_eq_of_sameByKey`: the order of writes of different keys does not matter
* `exists_ordered`, `exists_padded`: histories of the keys, put together and filled up
-/

namespace Interleaving

open Replay

variable {P ℓ α ω σ κ : Type*}

/-! ### Writes with keys -/

/-- The writes of each key are the same, and in the same order. -/
def SameByKey [DecidableEq κ] (key : ω → κ) (vs ws : List ω) : Prop :=
  ∀ k, vs.filter (fun w => key w = k) = ws.filter fun w => key w = k

theorem filter_filterMap_of {α β : Type*} {f : α → Option β} {p : β → Bool} {q : α → Bool}
    {l : List α} (h : ∀ a ∈ l, ∀ b, f a = some b → p b = q a) :
    (l.filterMap f).filter p = (l.filter q).filterMap f := by
  rw [List.filter_filterMap, List.filterMap_filter]
  refine List.filterMap_congr fun a ha => ?_
  cases hf : f a with
  | none => simp
  | some b => simp [Option.filter, h a ha b hf]

section Keys

variable [DecidableEq κ] {key : ω → κ} {vs ws : List ω}

/-- The first write comes up in the other list after writes of other keys. -/
theorem SameByKey.exists_append {v : ω} (h : SameByKey key (v :: vs) ws) :
    ∃ front back, ws = front ++ v :: back ∧ (∀ w ∈ front, key w ≠ key v) ∧
      SameByKey key vs (front ++ back) := by
  have hv : ws.filter (fun w => key w = key v) =
      v :: vs.filter fun w => key w = key v := by
    rw [← h, List.filter_cons_of_pos (by simp)]
  obtain ⟨front, rest, rfl, hfront, -, hrest⟩ := List.filter_eq_cons_iff.mp hv
  have hne : ∀ w ∈ front, key w ≠ key v := fun w hw => by simpa using hfront w hw
  refine ⟨front, rest, rfl, hne, fun k => ?_⟩
  have hk := h k
  rw [List.filter_append, List.filter_cons, List.filter_cons] at hk
  rw [List.filter_append]
  by_cases hvk : key v = k
  · have hnone : front.filter (fun w => key w = k) = [] :=
      List.filter_eq_nil_iff.mpr fun w hw => by simpa [← hvk] using hne w hw
    simpa [hvk, hnone] using hk
  · simpa [hvk] using hk

variable {apply : σ → ω → σ}

/-- **Writes of different keys may be exchanged.** -/
theorem perform_eq_of_sameByKey
    (hcomm : ∀ v w, key v ≠ key w → Commute apply v w) (h : SameByKey key vs ws) (s : σ) :
    perform apply s vs = perform apply s ws := by
  induction vs generalizing ws s with
  | nil =>
    have hnone : ws = [] := by
      refine List.eq_nil_iff_forall_not_mem.mpr fun w hw => ?_
      have hmem : w ∈ ws.filter fun v => key v = key w := List.mem_filter.mpr ⟨hw, by simp⟩
      rw [← h] at hmem
      exact absurd hmem (by simp)
    rw [hnone]
  | cons v vs ih =>
    obtain ⟨front, back, rfl, hne, hrest⟩ := h.exists_append
    have hfront : ∀ w ∈ front, Commute apply v w := fun w hw => hcomm v w (hne w hw).symm
    rw [perform_cons, ih hrest, perform_append, perform_append, perform_cons,
      perform_comm hfront]

end Keys

/-! ### Writes that are labelled with their keys -/

section Labels

variable [DecidableEq κ]

/-- What a key has written. -/
def ofKey {β : Type*} (k : κ) (xs : List (κ × β)) : List β :=
  (xs.filter fun x => x.1 = k).map Prod.snd

theorem mem_ofKey {β : Type*} {k : κ} {b : β} {xs : List (κ × β)} :
    b ∈ ofKey k xs ↔ (k, b) ∈ xs := by
  simp only [ofKey, List.mem_map, List.mem_filter, decide_eq_true_eq]
  constructor
  · rintro ⟨x, ⟨hx, rfl⟩, rfl⟩
    exact hx
  · exact fun h => ⟨(k, b), ⟨h, rfl⟩, rfl⟩

theorem filter_eq_map_ofKey {β : Type*} (k : κ) (xs : List (κ × β)) :
    (xs.filter fun x => x.1 = k) = (ofKey k xs).map fun b => (k, b) := by
  rw [ofKey, List.map_map]
  refine (List.map_id' _).symm.trans (List.map_congr_left fun x hx => ?_)
  obtain rfl : x.1 = k := of_decide_eq_true (List.mem_filter.mp hx).2
  rfl

theorem sameByKey_of_ofKey {β : Type*} {vs ws : List (κ × β)} (h : ∀ k, ofKey k vs = ofKey k ws) :
    SameByKey Prod.fst vs ws := by
  intro k
  rw [filter_eq_map_ofKey, filter_eq_map_ofKey, h]

theorem ofKey_append {β : Type*} (k : κ) (xs ys : List (κ × β)) :
    ofKey k (xs ++ ys) = ofKey k xs ++ ofKey k ys := by
  rw [ofKey, List.filter_append, List.map_append]
  rfl

theorem ofKey_map_mk {β : Type*} (k l : κ) (bs : List β) :
    ofKey k (bs.map fun b => (l, b)) = if l = k then bs else [] := by
  rw [ofKey, List.filter_map]
  by_cases h : l = k
  · simp [h, Function.comp_def]
  · simp [h, Function.comp_def]

theorem ofKey_flatMap {γ β : Type*} (k : κ) (M : List (κ × γ)) (f : γ → List β) :
    ofKey k (M.flatMap fun x => (f x.2).map fun b => (x.1, b)) = (ofKey k M).flatMap f := by
  induction M with
  | nil => rfl
  | cons x M ih =>
    rw [List.flatMap_cons, ofKey_append, ofKey_map_mk, ih, ← List.singleton_append, ofKey_append,
      List.flatMap_append]
    by_cases h : x.1 = k
    · simp [ofKey, h]
    · simp [ofKey, h]

/-- The histories of the keys can be put together in the order of a list. -/
theorem exists_ordered {γ β : Type*} {l : List (κ × γ)} {hist : κ → List (γ × β)}
    (h : ∀ k, (hist k).map Prod.fst = ofKey k l) : ∃ M : List (κ × γ × β),
      M.map (fun x => (x.1, x.2.1)) = l ∧ ∀ k, ofKey k M = hist k := by
  induction l generalizing hist with
  | nil => exact ⟨[], rfl, fun k => (List.map_eq_nil_iff.mp (h k)).symm⟩
  | cons x l ih =>
    have hx := h x.1
    rw [← List.singleton_append, ofKey_append] at hx
    have hone : ofKey x.1 [x] = [x.2] := by simp [ofKey]
    rw [hone, List.singleton_append] at hx
    obtain ⟨e, rest, hhist, he, hrest⟩ := List.map_eq_cons_iff.mp hx
    have hupdate (k : κ) : (Function.update hist x.1 rest k).map Prod.fst = ofKey k l := by
      rw [Function.update_apply]
      split
      · next hk => rw [hk, hrest]
      · next hk =>
        rw [h k, ← List.singleton_append, ofKey_append]
        simp [ofKey, Ne.symm hk]
    obtain ⟨M, hM, hofKey⟩ := ih hupdate
    refine ⟨(x.1, e) :: M, by rw [List.map_cons, hM, he], fun k => ?_⟩
    rw [← List.singleton_append, ofKey_append, hofKey, Function.update_apply]
    split
    · next hk => simp [ofKey, hk, hhist]
    · next hk => simp [ofKey, Ne.symm hk]

/-- A history, filled up with what has not been done. -/
theorem exists_padded {γ β : Type*} {l : List γ} {hist : List (γ × List β)}
    (hsub : (hist.map Prod.fst).Sublist l) (hl : l.Nodup) : ∃ hist' : List (γ × List β),
      hist'.map Prod.fst = l ∧ hist'.flatMap Prod.snd = hist.flatMap Prod.snd ∧
        ∀ e ∈ hist', e ∈ hist ∨ e.1 ∉ hist.map Prod.fst ∧ e.2 = [] := by
  induction l generalizing hist with
  | nil =>
    obtain rfl := List.map_eq_nil_iff.mp (List.sublist_nil.mp hsub)
    exact ⟨[], rfl, rfl, fun e he => absurd he List.not_mem_nil⟩
  | cons a l ih =>
    rw [List.nodup_cons] at hl
    obtain hsub | ⟨r, hr, hsub⟩ := List.sublist_cons_iff.mp hsub
    · obtain ⟨hist', hitems, hflat, hmem⟩ := ih hsub hl.2
      refine ⟨(a, []) :: hist', by rw [List.map_cons, hitems], hflat, ?_⟩
      exact List.forall_mem_cons.mpr ⟨Or.inr ⟨fun ha => hl.1 (hsub.subset ha), rfl⟩, hmem⟩
    · obtain ⟨⟨b, ops⟩, rest, rfl, rfl, rfl⟩ := List.map_eq_cons_iff.mp hr
      obtain ⟨hist', hitems, hflat, hmem⟩ := ih hsub hl.2
      refine ⟨(b, ops) :: hist', by rw [List.map_cons, hitems], ?_, fun e he => ?_⟩
      · rw [List.flatMap_cons, List.flatMap_cons, hflat]
      · obtain rfl | he' := List.mem_cons.mp he
        · exact Or.inl List.mem_cons_self
        · refine (hmem e he').imp (List.mem_cons_of_mem _) fun hnot => ⟨fun hin => ?_, hnot.2⟩
          obtain heq | hin := List.mem_cons.mp hin
          · exact hl.1 (hitems ▸ heq ▸ List.mem_map_of_mem he')
          · exact hnot.1 hin

end Labels

/-! ### One writer -/

/-- What a writer writes in some steps, and where it ends. -/
def emits (next : ℓ → α → Option (ℓ × List ω)) : ℓ → List α → Option (ℓ × List ω)
  | l, [] => some (l, [])
  | l, a :: as => (next l a).bind fun r => (emits next r.1 as).map fun q => (q.1, r.2 ++ q.2)

variable {next : ℓ → α → Option (ℓ × List ω)}

@[simp] theorem emits_nil (l : ℓ) : emits next l [] = some (l, []) := rfl

theorem emits_cons {l l' : ℓ} {a : α} {as : List α} {ws : List ω} :
    emits next l (a :: as) = some (l', ws) ↔ ∃ l₁ ws₁ ws₂, next l a = some (l₁, ws₁) ∧
      emits next l₁ as = some (l', ws₂) ∧ ws = ws₁ ++ ws₂ := by
  simp only [emits, Option.bind_eq_some_iff, Option.map_eq_some_iff, Prod.exists, Prod.mk.injEq]
  constructor
  · rintro ⟨l₁, ws₁, hnext, l₂, ws₂, hrest, rfl, rfl⟩
    exact ⟨l₁, ws₁, ws₂, hnext, hrest, rfl⟩
  · rintro ⟨l₁, ws₁, ws₂, hnext, hrest, rfl⟩
    exact ⟨l₁, ws₁, hnext, l', ws₂, hrest, rfl, rfl⟩

theorem emits_append {l l₁ l' : ℓ} {as bs : List α} {ws₁ ws₂ : List ω}
    (h₁ : emits next l as = some (l₁, ws₁)) (h₂ : emits next l₁ bs = some (l', ws₂)) :
    emits next l (as ++ bs) = some (l', ws₁ ++ ws₂) := by
  induction as generalizing l ws₁ with
  | nil =>
    obtain ⟨rfl, rfl⟩ := Prod.mk.inj (Option.some.inj h₁)
    exact h₂
  | cons a as ih =>
    obtain ⟨l₂, vs₁, vs₂, hnext, hrest, rfl⟩ := emits_cons.mp h₁
    exact emits_cons.mpr ⟨l₂, vs₁, _, hnext, ih hrest, List.append_assoc ..⟩

/-! ### All of them -/

/-- What belongs to one writer. -/
def of [DecidableEq P] {β : Type*} (p : P) (xs : List (P × β)) : List β :=
  xs.filterMap fun x => if x.1 = p then some x.2 else none

/-- The store and the writers. -/
structure State (P ℓ σ : Type*) where
  store : σ
  writers : P → ℓ

variable [DecidableEq P] {apply : σ → ω → σ}

/-- One step of one writer. -/
def step (next : ℓ → α → Option (ℓ × List ω)) (apply : σ → ω → σ) (s : State P ℓ σ) (a : P × α) :
    Option (State P ℓ σ) :=
  (next (s.writers a.1) a.2).map fun r =>
    { store := perform apply s.store r.2, writers := Function.update s.writers a.1 r.1 }

section Of

variable {β : Type*}

@[simp] theorem of_nil (p : P) : of p ([] : List (P × β)) = [] := rfl

theorem of_cons (p : P) (x : P × β) (xs : List (P × β)) :
    of p (x :: xs) = (if x.1 = p then [x.2] else []) ++ of p xs := by
  rw [of, List.filterMap_cons]
  by_cases h : x.1 = p
  · rw [if_pos h, if_pos h]
    rfl
  · rw [if_neg h, if_neg h]
    rfl

theorem of_append (p : P) (xs ys : List (P × β)) : of p (xs ++ ys) = of p xs ++ of p ys :=
  List.filterMap_append

theorem of_map_mk (p q : P) (xs : List β) :
    of p (xs.map fun x => (q, x)) = if q = p then xs else [] := by
  rw [of, List.filterMap_map]
  by_cases h : q = p
  · simp [h]
  · simp [h]

theorem mem_of {p : P} {x : β} {xs : List (P × β)} : x ∈ of p xs ↔ (p, x) ∈ xs := by
  induction xs with
  | nil => simp
  | cons y ys ih =>
    rw [of_cons, List.mem_append, List.mem_cons, ih]
    refine or_congr_left ?_
    obtain ⟨q, y⟩ := y
    by_cases hq : q = p
    · simp [hq]
    · simp [hq, Ne.symm hq]

end Of

/-- **A run, seen by each writer.** It takes its own steps and writes what it would write alone. -/
theorem exists_of_run {s s' : State P ℓ σ} {schedule : List (P × α)}
    (h : Transition.run (step next apply) s schedule = some s') : ∃ W : List (P × ω),
      s'.store = perform apply s.store (W.map Prod.snd) ∧
      ∀ p, emits next (s.writers p) (of p schedule) = some (s'.writers p, of p W) := by
  induction schedule generalizing s with
  | nil =>
    obtain rfl := Option.some.inj h
    exact ⟨[], rfl, fun p => rfl⟩
  | cons a schedule ih =>
    obtain ⟨t, ht, h⟩ := Option.bind_eq_some_iff.mp h
    obtain ⟨⟨l, ws⟩, hnext, rfl⟩ := Option.map_eq_some_iff.mp ht
    obtain ⟨W, hstore, hwriters⟩ := ih h
    refine ⟨ws.map (fun w => (a.1, w)) ++ W, ?_, fun p => ?_⟩
    · rw [hstore, List.map_append, perform_append, List.map_map]
      simp [Function.comp_def]
    · have hp : emits next (Function.update s.writers a.1 l p) (of p schedule) =
          some (s'.writers p, of p W) := hwriters p
      rw [of_cons, of_append, of_map_mk]
      by_cases hap : a.1 = p
      · subst hap
        rw [if_pos rfl, if_pos rfl, List.singleton_append]
        rw [Function.update_self] at hp
        exact emits_cons.mpr ⟨l, ws, _, hnext, hp, rfl⟩
      · rw [if_neg hap, if_neg hap]
        rwa [Function.update_of_ne (Ne.symm hap)] at hp

/-- A writer that works alone. -/
theorem run_of_emits {p : P} {l : ℓ} {as : List α} {ws : List ω} {s : State P ℓ σ}
    (h : emits next (s.writers p) as = some (l, ws)) :
    Transition.run (step next apply) s (as.map fun a => (p, a)) =
      some ⟨perform apply s.store ws, Function.update s.writers p l⟩ := by
  induction as generalizing s ws with
  | nil =>
    obtain ⟨rfl, rfl⟩ := Prod.mk.inj (Option.some.inj h)
    rw [Function.update_eq_self]
    rfl
  | cons a as ih =>
    obtain ⟨l₁, ws₁, ws₂, hnext, hrest, rfl⟩ := emits_cons.mp h
    let t : State P ℓ σ := ⟨perform apply s.store ws₁, Function.update s.writers p l₁⟩
    have hstep : step next apply s (p, a) = some t := by rw [step, hnext, Option.map_some]
    have ht : emits next (t.writers p) as = some (l, ws₂) := by
      rwa [show t.writers p = l₁ from Function.update_self ..]
    rw [List.map_cons, Transition.run, hstep, Option.bind_some, ih ht, perform_append,
      Function.update_idem]

/-- The writes of a key are those of its writer. -/
theorem filter_key_of [DecidableEq κ] {key : ω → κ} {part : κ → P} {W : List (P × ω)}
    (h : ∀ p, ∀ w ∈ of p W, part (key w) = p) (k : κ) :
    (W.map Prod.snd).filter (fun w => key w = k) =
      (of (part k) W).filter fun w => key w = k := by
  induction W with
  | nil => rfl
  | cons x W ih =>
    have hx : part (key x.2) = x.1 := h x.1 x.2 (by rw [of_cons, if_pos rfl]; simp)
    have hrest := ih fun p w hw => h p w (by rw [of_cons]; exact List.mem_append_right _ hw)
    rw [List.map_cons, List.filter_cons, of_cons, List.filter_append, hrest]
    by_cases hk : key x.2 = k
    · subst hk
      simp [hx]
    · simp only [hk, decide_false, Bool.false_eq_true, if_false]
      split
      · simp [hk]
      · simp

end Interleaving
