import Mathlib.Data.List.AList
import Mathlib.Data.List.Sort
import Mathlib.Algebra.Group.Defs
import Mathlib.Order.Defs.LinearOrder

/-!
# Sorted sets

A finite map from members to scores, read back in ascending order of score and, among equal
scores, of member. `AList` supplies the map and the proof that no member occurs twice; this file
adds the order.

## Main definitions

* `SortedSet.ranked`: the members with their scores, in order
* `SortedSet.incrBy`: add to a member's score; an absent member counts as `0`
* `SortedSet.rangeFrom`: the ranked members whose score is at least a bound
* `SortedSet.zrange`, `SortedSet.zrevrange`: the members between two ranks

## Main results

* `mem_ranked`: ranking forgets nothing and invents nothing
* `nodup_ranked`, `pairwise_ranked`: no member twice, and in order
* `find?_eq_some_iff_of_pairwise`: the first entry that passes a test is the least one that does
* `slice_of_length_le`: a range that is long enough has all members
* `slice_window`, `flatMap_windows`: windows of ranks, and windows side by side
-/

/-- A finite map from members to scores. -/
abbrev SortedSet (α σ : Type*) := AList fun _ : α => σ

namespace SortedSet

variable {α σ : Type*} [LinearOrder α] [LinearOrder σ]

/-- The order of the entries: by score, then by member. -/
def rankLE (p q : α × σ) : Prop := p.2 < q.2 ∨ (p.2 = q.2 ∧ p.1 ≤ q.1)

instance : DecidableRel (rankLE (α := α) (σ := σ)) := fun p q =>
  inferInstanceAs (Decidable (p.2 < q.2 ∨ (p.2 = q.2 ∧ p.1 ≤ q.1)))

instance : Std.Total (rankLE (α := α) (σ := σ)) where
  total p q := by
    rcases lt_trichotomy p.2 q.2 with h | h | h
    · exact Or.inl (Or.inl h)
    · exact (le_total p.1 q.1).imp (fun hm => Or.inr ⟨h, hm⟩) fun hm => Or.inr ⟨h.symm, hm⟩
    · exact Or.inr (Or.inl h)

instance : IsTrans (α × σ) rankLE where
  trans p q r := by
    rintro (h | ⟨h, hm⟩) (h' | ⟨h', hm'⟩)
    · exact Or.inl (h.trans h')
    · exact Or.inl (h'.symm ▸ h)
    · exact Or.inl (h ▸ h')
    · exact Or.inr ⟨h.trans h', hm.trans hm'⟩

instance : Std.Antisymm (rankLE (α := α) (σ := σ)) where
  antisymm p q := by
    rintro (h | ⟨h, hm⟩) (h' | ⟨h', hm'⟩)
    · exact absurd h' h.asymm
    · exact absurd h'.symm h.ne
    · exact absurd h.symm h'.ne
    · exact Prod.ext (le_antisymm hm hm') h

/-- The entries in rank order. -/
def ranked (z : SortedSet α σ) : List (α × σ) :=
  (z.entries.map fun e => (e.1, e.2)).insertionSort rankLE

/-- The ranked entries whose score is at least `lo`. -/
def rangeFrom (z : SortedSet α σ) (lo : σ) : List (α × σ) :=
  z.ranked.filter fun p => lo ≤ p.2

/-- Add `d` to the score of `a`, from `0` when `a` is absent. -/
def incrBy [AddMonoid σ] (z : SortedSet α σ) (d : σ) (a : α) : SortedSet α σ :=
  z.insert a ((z.lookup a).getD 0 + d)

theorem mem_ranked {z : SortedSet α σ} {a : α} {x : σ} :
    (a, x) ∈ z.ranked ↔ z.lookup a = some x := by
  rw [ranked, List.mem_insertionSort, ← Option.mem_def, AList.mem_lookup_iff, List.mem_map]
  constructor
  · rintro ⟨⟨b, y⟩, hb, h⟩
    simp only [Prod.mk.injEq] at h
    obtain ⟨rfl, rfl⟩ := h
    exact hb
  · exact fun h => ⟨⟨a, x⟩, h, rfl⟩

/-- No member is ranked twice. -/
theorem nodup_ranked (z : SortedSet α σ) : (z.ranked.map Prod.fst).Nodup := by
  have hperm : (z.ranked.map Prod.fst).Perm z.keys := by
    refine ((List.perm_insertionSort rankLE _).map Prod.fst).trans ?_
    rw [List.map_map]
    exact List.Perm.refl _
  exact hperm.nodup_iff.mpr z.keys_nodup

theorem pairwise_ranked (z : SortedSet α σ) : z.ranked.Pairwise rankLE :=
  List.pairwise_insertionSort _ _

theorem mem_rangeFrom {z : SortedSet α σ} {lo : σ} {a : α} {x : σ} :
    (a, x) ∈ z.rangeFrom lo ↔ z.lookup a = some x ∧ lo ≤ x := by
  rw [rangeFrom, List.mem_filter, mem_ranked, decide_eq_true_eq]

omit [LinearOrder σ] in
@[simp] theorem lookup_incrBy_self [AddMonoid σ] (z : SortedSet α σ) (d : σ) (a : α) :
    (z.incrBy d a).lookup a = some ((z.lookup a).getD 0 + d) :=
  AList.lookup_insert z

omit [LinearOrder σ] in
theorem lookup_incrBy_ne [AddMonoid σ] (z : SortedSet α σ) (d : σ) {a b : α} (h : b ≠ a) :
    (z.incrBy d a).lookup b = z.lookup b :=
  AList.lookup_insert_ne h

/-- Erasing a list of members. -/
def eraseAll (z : SortedSet α σ) (as : List α) : SortedSet α σ :=
  as.foldl (fun z a => z.erase a) z

omit [LinearOrder σ] in
theorem lookup_eraseAll (z : SortedSet α σ) (as : List α) (b : α) :
    (z.eraseAll as).lookup b = if b ∈ as then none else z.lookup b := by
  induction as generalizing z with
  | nil => simp [eraseAll]
  | cons a as ih =>
    rw [show z.eraseAll (a :: as) = SortedSet.eraseAll (z.erase a) as from rfl, ih]
    by_cases hb : b = a
    · subst hb; simp
    · simp [hb, AList.lookup_erase_ne hb]

/-! ### The first entry that passes a test -/

section First

variable {β : Type*} {R : β → β → Prop} [Std.Total R] [Std.Antisymm R] {l : List β} {p : β → Bool}
  {x y : β}

/-- A list in order holds the least element that passes a test before the others. -/
theorem find?_eq_some_iff_of_pairwise (hl : l.Pairwise R) :
    l.find? p = some x ↔ x ∈ l ∧ p x ∧ ∀ y ∈ l, p y → R x y := by
  constructor
  · intro hf
    refine ⟨List.mem_of_find?_eq_some hf, List.find?_some hf, fun y hy hpy => ?_⟩
    obtain ⟨-, front, back, rfl, hfront⟩ := List.find?_eq_some_iff_append.mp hf
    obtain hy | hy := List.mem_append.mp hy
    · exact absurd hpy (by simpa using hfront y hy)
    · obtain rfl | hy := List.mem_cons.mp hy
      · exact (Std.Total.total y y).elim id id
      · exact List.rel_of_pairwise_cons (List.pairwise_append.mp hl).2.1 hy
  · rintro ⟨hx, hpx, hleast⟩
    obtain ⟨z, hz⟩ := Option.isSome_iff_exists.mp (List.find?_isSome.mpr ⟨x, hx, hpx⟩)
    obtain ⟨hpz, front, back, rfl, hfront⟩ := List.find?_eq_some_iff_append.mp hz
    obtain hx | hx := List.mem_append.mp hx
    · exact absurd hpx (by simpa using hfront x hx)
    · obtain rfl | hx := List.mem_cons.mp hx
      · exact hz
      · have hzx : R z x := List.rel_of_pairwise_cons (List.pairwise_append.mp hl).2.1 hx
        have hxz : R x z := hleast z (by simp) hpz
        rw [hz, Std.Antisymm.antisymm z x hzx hxz]

omit [Std.Total R] in
/-- What a list in order has before that element. -/
theorem mem_takeWhile_of_pairwise (hl : l.Pairwise R) (hf : l.find? p = some x) :
    y ∈ l.takeWhile (fun z => !p z) ↔ y ∈ l ∧ p y = false ∧ R y x := by
  obtain ⟨hpx, front, back, rfl, hfront⟩ := List.find?_eq_some_iff_append.mp hf
  rw [List.takeWhile_append_of_pos hfront, List.takeWhile_cons, hpx, Bool.not_true,
    if_neg Bool.false_ne_true, List.append_nil]
  constructor
  · intro hy
    exact ⟨List.mem_append_left _ hy, by simpa using hfront y hy,
      (List.pairwise_append.mp hl).2.2 y hy x List.mem_cons_self⟩
  · rintro ⟨hy, hpy, hyx⟩
    obtain hy | hy := List.mem_append.mp hy
    · exact hy
    · obtain rfl | hy := List.mem_cons.mp hy
      · exact absurd (hpx.symm.trans hpy) (by decide)
      · have hxy : R x y := List.rel_of_pairwise_cons (List.pairwise_append.mp hl).2.1 hy
        obtain rfl := Std.Antisymm.antisymm x y hxy hyx
        exact absurd (hpx.symm.trans hpy) (by decide)

end First

theorem pairwise_rangeFrom (z : SortedSet α σ) (lo : σ) : (z.rangeFrom lo).Pairwise rankLE :=
  (pairwise_ranked z).filter _

/-! ### Ranges of ranks -/

/-- The elements from `start` to `stop`, both included. A negative index counts from the end, and
one that is out of range is cut off. -/
def slice {β : Type*} (l : List β) (start stop : ℤ) : List β :=
  let first := if start < 0 then start + l.length else start
  let last := if stop < 0 then stop + l.length else stop
  (l.take (last + 1).toNat).drop first.toNat

/-- `ZRANGE`. -/
def zrange (z : SortedSet α σ) (start stop : ℤ) : List α :=
  slice (z.ranked.map Prod.fst) start stop

/-- `ZREVRANGE`. -/
def zrevrange (z : SortedSet α σ) (start stop : ℤ) : List α :=
  slice (z.ranked.map Prod.fst).reverse start stop

theorem slice_of_length_le {β : Type*} {l : List β} {limit : ℤ} (h : l.length ≤ limit) :
    slice l 0 (0 + limit - 1) = l := by
  cases l with
  | nil => simp [slice]
  | cons x xs =>
    have hpos : ¬0 + limit - 1 < 0 := by
      rw [List.length_cons] at h
      omega
    have hlength : (x :: xs).length ≤ (0 + limit - 1 + 1).toNat := by omega
    rw [slice, if_neg hpos, if_neg (lt_irrefl 0), List.take_of_length_le hlength]
    rfl

/-- **A window of ranks**, unless both of its bounds are `0` and `stop` wraps around. -/
theorem slice_window {β : Type*} (l : List β) {offset limit : ℕ}
    (h : ¬(offset = 0 ∧ limit = 0)) :
    slice l offset (offset + limit - 1) = (l.drop offset).take limit := by
  have hstart : ¬(offset : ℤ) < 0 := by omega
  have hstop : ¬(offset + limit - 1 : ℤ) < 0 := by omega
  rw [slice, if_neg hstart, if_neg hstop, List.take_drop]
  congr 2
  omega

/-- And then it is everything. -/
theorem slice_zero_zero {β : Type*} (l : List β) : slice l 0 (0 + 0 - 1) = l := by
  have hlength : l.length ≤ (0 + 0 - 1 + (l.length : ℤ) + 1).toNat := by omega
  rw [slice, if_neg (lt_irrefl 0), if_pos (by decide), List.take_of_length_le hlength]
  rfl

/-- Windows side by side. -/
theorem flatMap_windows {β : Type*} (l : List β) (k n : ℕ) :
    ((List.range n).flatMap fun i => (l.drop (i * k)).take k) = l.take (n * k) := by
  induction n with
  | zero => simp
  | succ n ih =>
    rw [List.range_succ, List.flatMap_append, ih, List.flatMap_singleton, Nat.succ_mul,
      List.take_add]

theorem mem_map_ranked {z : SortedSet α σ} {a : α} :
    a ∈ z.ranked.map Prod.fst ↔ (z.lookup a).isSome := by
  rw [List.mem_map, Option.isSome_iff_exists]
  constructor
  · rintro ⟨⟨b, x⟩, hmem, rfl⟩
    exact ⟨x, mem_ranked.mp hmem⟩
  · rintro ⟨x, hx⟩
    exact ⟨(a, x), mem_ranked.mpr hx, rfl⟩

example : slice [1, 2, 3] 0 (-1) = [1, 2, 3] := by decide

end SortedSet
