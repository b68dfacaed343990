import Mathlib.Data.List.AList

/-!
# Tables with constraints

A table is a finite map from primary keys to rows. Its constraints are about all rows at once: what
each row is like, and that a column has no value twice. A write changes one row, so it keeps a
constraint if that row respects it.

## Main definitions

* `Tables.Each`: every row is so
* `Tables.UniqueOn`: no two rows agree in a column
* `Tables.Unused`: a value that no row has

## Main results

* `Each.insert`, `UniqueOn.insert`: one row is written
* `UniqueOn.length_filter_le`: a search by a unique column finds at most one row
* `UniqueOn.head?_filter`: and it finds the one that is there
* `Each.head?_filter`: a search by the primary key is a lookup
* `filter_insert`: a write leaves the rest of the table alone
-/

namespace Tables

variable {ι α κ : Type*} [DecidableEq ι]

/-- Every row is so, under its key. -/
def Each (p : ι → α → Prop) (rows : AList fun _ : ι => α) : Prop :=
  ∀ i a, rows.lookup i = some a → p i a

/-- No two rows agree in the column. -/
def UniqueOn (f : α → κ) (rows : AList fun _ : ι => α) : Prop :=
  ∀ i j a b, rows.lookup i = some a → rows.lookup j = some b → f a = f b → i = j

/-- No row has the value in the column. -/
def Unused (f : α → κ) (rows : AList fun _ : ι => α) (x : κ) : Prop :=
  Each (fun _ a => f a ≠ x) rows

variable {rows : AList fun _ : ι => α} {i j : ι} {a b : α} {p : ι → α → Prop} {f : α → κ}

theorem lookup_insert_cases (h : (rows.insert i a).lookup j = some b) :
    j = i ∧ b = a ∨ j ≠ i ∧ rows.lookup j = some b := by
  by_cases hj : j = i
  · subst hj
    rw [AList.lookup_insert, Option.some.injEq] at h
    exact Or.inl ⟨rfl, h.symm⟩
  · rw [AList.lookup_insert_ne hj] at h
    exact Or.inr ⟨hj, h⟩

theorem each_empty : Each p (∅ : AList fun _ : ι => α) := fun _ _ h => by simp at h

theorem uniqueOn_empty : UniqueOn f (∅ : AList fun _ : ι => α) := fun _ _ _ _ h => by simp at h

/-- **One row is written.** -/
theorem Each.insert (h : Each p rows) (ha : p i a) : Each p (rows.insert i a) := by
  intro j b hb
  obtain ⟨rfl, rfl⟩ | ⟨-, hold⟩ := lookup_insert_cases hb
  · exact ha
  · exact h j b hold

/-- The row that is written has no value of another one. -/
theorem UniqueOn.insert (h : UniqueOn f rows)
    (ha : ∀ j b, rows.lookup j = some b → f b = f a → j = i) : UniqueOn f (rows.insert i a) := by
  intro j k b c hb hc hbc
  obtain ⟨rfl, rfl⟩ | ⟨-, hold⟩ := lookup_insert_cases hb
  · obtain ⟨rfl, -⟩ | ⟨-, hold⟩ := lookup_insert_cases hc
    · rfl
    · exact (ha k c hold hbc.symm).symm
  · obtain ⟨rfl, rfl⟩ | ⟨-, hold'⟩ := lookup_insert_cases hc
    · exact ha j b hold hbc
    · exact h j k b c hold hold' hbc

/-- A new value is written. -/
theorem UniqueOn.insert_unused (h : UniqueOn f rows) (ha : Unused f rows (f a)) :
    UniqueOn f (rows.insert i a) :=
  h.insert fun j b hb hfb => absurd hfb (ha j b hb)

/-- A row is written over one with the same value. -/
theorem UniqueOn.insert_same (h : UniqueOn f rows) {old : α} (hold : rows.lookup i = some old)
    (ha : f a = f old) : UniqueOn f (rows.insert i a) :=
  h.insert fun j b hb hfb => h j i b old hb hold (hfb.trans ha)

/-- The rows that pass a test, in the order of the table. -/
theorem mem_map_entries : a ∈ rows.entries.map Sigma.snd ↔ ∃ i, rows.lookup i = some a := by
  rw [List.mem_map]
  constructor
  · rintro ⟨⟨i, a⟩, he, rfl⟩
    exact ⟨i, AList.mem_lookup_iff.mpr he⟩
  · rintro ⟨i, hi⟩
    exact ⟨⟨i, a⟩, AList.mem_lookup_iff.mp hi, rfl⟩

/-- **A search by a unique column** finds at most one row. -/
theorem UniqueOn.length_filter_le (h : UniqueOn f rows) {q : α → Bool} {x : κ}
    (hq : ∀ a, q a = true → f a = x) :
    ((rows.entries.map Sigma.snd).filter q).length ≤ 1 := by
  -- a part of the table has its keys once each, so two hits would be two rows with one key
  have hentries (l : List (Σ _ : ι, α)) (hl : l.Sublist rows.entries) :
      ((l.map Sigma.snd).filter q).length ≤ 1 := by
    induction l with
    | nil => exact Nat.zero_le 1
    | cons e l ih =>
      have hsub : l.Sublist rows.entries := (List.sublist_cons_self e l).trans hl
      rw [List.map_cons, List.filter_cons]
      split
      · next he =>
        have hnone : (l.map Sigma.snd).filter q = [] := by
          rw [List.filter_eq_nil_iff]
          intro a ha hqa
          obtain ⟨e', he', rfl⟩ := List.mem_map.mp ha
          have hkey : e.1 = e'.1 :=
            h _ _ e.2 e'.2 (AList.mem_lookup_iff.mpr (hl.mem List.mem_cons_self))
              (AList.mem_lookup_iff.mpr (hsub.mem he')) ((hq _ he).trans (hq _ hqa).symm)
          have hkeys : (e :: l).NodupKeys := rows.nodupKeys.sublist hl
          rw [List.nodupKeys_cons] at hkeys
          exact hkeys.1 (hkey ▸ List.mem_keys_of_mem he')
        rw [hnone]
        exact le_refl 1
      · exact ih hsub
  exact hentries rows.entries (List.Sublist.refl _)

theorem head?_eq_some_iff {l : List α} (h : l.length ≤ 1) : l.head? = some a ↔ a ∈ l := by
  match l, h with
  | [], _ => simp
  | [b], _ => simp [eq_comm]
  | _ :: _ :: _, h => simp at h

/-- And it finds the row that has the value. -/
theorem UniqueOn.head?_filter [DecidableEq κ] (h : UniqueOn f rows)
    (hi : rows.lookup i = some a) :
    ((rows.entries.map Sigma.snd).filter fun b => f b = f a).head? = some a := by
  rw [head?_eq_some_iff (h.length_filter_le (x := f a) (by simp)), List.mem_filter,
    mem_map_entries]
  exact ⟨⟨i, hi⟩, decide_eq_true rfl⟩

theorem Each.uniqueOn {key : α → ι} (h : Each (fun i a => key a = i) rows) : UniqueOn key rows :=
  fun i j a b ha hb hab => (h i a ha).symm.trans (hab.trans (h j b hb))

/-- A column that has the key of the row: a search by it is a lookup. -/
theorem Each.head?_filter {key : α → ι} (h : Each (fun i a => key a = i) rows) (i : ι)
    (q : α → Bool) :
    ((rows.entries.map Sigma.snd).filter fun a => decide (key a = i) && q a).head? =
      (rows.lookup i).filter q := by
  ext a
  rw [head?_eq_some_iff (h.uniqueOn.length_filter_le (x := i) (by simp +contextual)),
    List.mem_filter, mem_map_entries, Option.filter_eq_some_iff]
  constructor
  · rintro ⟨⟨j, hj⟩, hqa⟩
    simp only [Bool.and_eq_true, decide_eq_true_eq] at hqa
    rw [h j a hj] at hqa
    exact ⟨hqa.1 ▸ hj, hqa.2⟩
  · rintro ⟨hi, hqa⟩
    exact ⟨⟨i, hi⟩, by simp [h i a hi, hqa]⟩

/-! ### A part of a table -/

theorem filter_kerase {q : α → Bool} {l : List (Σ _ : ι, α)} (h : ∀ a, ⟨i, a⟩ ∈ l → q a = false) :
    ((l.kerase i).map Sigma.snd).filter q = (l.map Sigma.snd).filter q := by
  induction l with
  | nil => rfl
  | cons e l ih =>
    by_cases he : i = e.1
    · subst he
      rw [List.kerase_cons_eq rfl, List.map_cons, List.filter_cons_of_neg]
      rw [h e.2 List.mem_cons_self]
      exact Bool.false_ne_true
    · rw [List.kerase_cons_ne he, List.map_cons, List.map_cons, List.filter_cons, List.filter_cons,
        ih fun a ha => h a (List.mem_cons_of_mem e ha)]

/-- **The rest of the table.** A row that a part of the table has neither before nor after is
written. -/
theorem filter_insert {q : α → Bool} (ha : q a = false)
    (hold : ∀ b, rows.lookup i = some b → q b = false) :
    ((rows.insert i a).entries.map Sigma.snd).filter q =
      (rows.entries.map Sigma.snd).filter q := by
  rw [AList.entries_insert, List.map_cons, List.filter_cons_of_neg (by simp [ha])]
  exact filter_kerase fun b hb => hold b (AList.mem_lookup_iff.mpr hb)

end Tables
