import Mathlib.Data.List.Pairwise
import Mathlib.Data.List.Perm.Basic

/-!
# Pages of a list in blocks

A list is read in blocks, one for each key and the keys in order, until a page is full. So the page
is an initial part of the blocks put together. Where each block is in order and the blocks are in
the opposite one, the page is in order only if it lies in one block.

## Main definitions

* `Blocks.FirstFills`: the first block that is not empty fills the page, or is the only one

## Main results

* `Blocks.pairwise_take_iff`: when a page is in order
* `Blocks.perm_flatMap_filter`: the blocks of a list make up the part of it that has these keys
-/

namespace Blocks

variable {κ α : Type}

/-- The first block that is not empty has `n` elements, or all later ones are empty. -/
def FirstFills (f : κ → List α) (n : ℕ) (keys : List κ) : Prop :=
  ∀ pre k post, keys = pre ++ k :: post → (∀ k' ∈ pre, f k' = []) → f k ≠ [] →
    n ≤ (f k).length ∨ ∀ k' ∈ post, f k' = []

section Page

variable {f : κ → List α} {n : ℕ} {keys : List κ} {r : α → α → Prop}

theorem firstFills_nil : FirstFills f n [] := by
  intro pre k post h
  exact absurd h (by simp)

/-- An empty block makes no difference. -/
theorem firstFills_cons_of_eq_nil {k : κ} (hk : f k = []) :
    FirstFills f n (k :: keys) ↔ FirstFills f n keys := by
  constructor
  · intro h pre k' post heq hpre
    exact h (k :: pre) k' post (by rw [heq, List.cons_append])
      (List.forall_mem_cons.mpr ⟨hk, hpre⟩)
  · intro h pre k' post heq hpre hne
    cases pre with
    | nil =>
      obtain ⟨rfl, rfl⟩ := List.cons.inj heq
      exact absurd hk hne
    | cons p pre =>
      obtain ⟨rfl, rfl⟩ := List.cons.inj heq
      exact h pre k' post rfl (List.forall_mem_cons.mp hpre).2 hne

theorem firstFills_cons_of_ne_nil {k : κ} (hk : f k ≠ []) :
    FirstFills f n (k :: keys) ↔ n ≤ (f k).length ∨ ∀ k' ∈ keys, f k' = [] := by
  constructor
  · intro h
    exact h [] k keys rfl (by simp) hk
  · intro h pre k' post heq hpre hne
    cases pre with
    | nil =>
      obtain ⟨rfl, rfl⟩ := List.cons.inj heq
      exact h
    | cons p pre =>
      obtain ⟨rfl, rfl⟩ := List.cons.inj heq
      exact absurd (hpre k List.mem_cons_self) hk

/-- Then the page is a part of one block. -/
theorem FirstFills.take_eq (h : FirstFills f n keys) : (keys.flatMap f).take n = [] ∨
    ∃ k ∈ keys, (keys.flatMap f).take n = (f k).take n := by
  induction keys with
  | nil => exact Or.inl (by simp)
  | cons k keys ih =>
    rw [List.flatMap_cons]
    by_cases hk : f k = []
    · rw [hk, List.nil_append]
      refine (ih ((firstFills_cons_of_eq_nil hk).mp h)).imp_right ?_
      rintro ⟨k', hk', heq⟩
      exact ⟨k', List.mem_cons_of_mem _ hk', heq⟩
    · refine Or.inr ⟨k, List.mem_cons_self, ?_⟩
      obtain hfull | hrest := (firstFills_cons_of_ne_nil hk).mp h
      · exact List.take_append_of_le_length hfull
      · rw [List.flatMap_eq_nil_iff.mpr hrest, List.append_nil]

/-- **When a page is in order**: each block is, and no element is followed by one of a later
block. -/
theorem pairwise_take_iff (hblock : ∀ k ∈ keys, (f k).Pairwise r)
    (hkeys : keys.Pairwise fun k k' => ∀ a ∈ f k, ∀ b ∈ f k', ¬r a b) :
    ((keys.flatMap f).take n).Pairwise r ↔ FirstFills f n keys := by
  constructor
  · induction keys with
    | nil => exact fun _ => firstFills_nil
    | cons k keys ih =>
      obtain ⟨-, hblocks⟩ := List.forall_mem_cons.mp hblock
      obtain ⟨hk, hkeys⟩ := List.pairwise_cons.mp hkeys
      intro h
      rw [List.flatMap_cons] at h
      by_cases hnil : f k = []
      · rw [hnil, List.nil_append] at h
        exact (firstFills_cons_of_eq_nil hnil).mpr (ih hblocks hkeys h)
      · refine (firstFills_cons_of_ne_nil hnil).mpr (or_iff_not_imp_left.mpr fun hshort => ?_)
        -- otherwise the page has an element of this block and one of a later block
        by_contra hrest
        push Not at hrest
        obtain ⟨k', hk', hne⟩ := hrest
        have hlater : keys.flatMap f ≠ [] := fun heq =>
          hne (List.flatMap_eq_nil_iff.mp heq k' hk')
        obtain ⟨b, bs, hb⟩ := List.exists_cons_of_ne_nil hlater
        obtain ⟨a, ha⟩ := List.exists_mem_of_ne_nil _ hnil
        have hbmem : b ∈ keys.flatMap f := hb ▸ List.mem_cons_self
        obtain ⟨k₁, hk₁, hbk⟩ := List.mem_flatMap.mp hbmem
        rw [List.take_append, List.take_of_length_le (by omega), hb] at h
        obtain ⟨m, hm⟩ := Nat.exists_eq_succ_of_ne_zero (show n - (f k).length ≠ 0 by omega)
        rw [hm, List.take_succ_cons] at h
        exact hk k₁ hk₁ a ha b hbk
          ((List.pairwise_append.mp h).2.2 a ha b List.mem_cons_self)
  · intro h
    obtain heq | ⟨k, hk, heq⟩ := h.take_eq
    · rw [heq]
      exact List.Pairwise.nil
    · rw [heq]
      exact (hblock k hk).sublist (List.take_sublist _ _)

/-- What is not after an element of a page is in the page. -/
theorem mem_take_of_not {l : List α} (hl : l.Pairwise r) {a b : α} (hb : b ∈ l.take n) (ha : a ∈ l)
    (h : ¬r b a) : a ∈ l.take n := by
  rw [← List.take_append_drop n l] at hl ha
  obtain ha | ha := List.mem_append.mp ha
  · exact ha
  · exact absurd ((List.pairwise_append.mp hl).2.2 b hb a ha) h

end Page

/-- **The blocks of a list make up the part of it that has these keys.** -/
theorem perm_flatMap_filter [DecidableEq κ] (key : α → κ) (l : List α) {keys : List κ}
    (h : keys.Nodup) : (keys.flatMap fun k => l.filter fun a => key a = k).Perm
      (l.filter fun a => key a ∈ keys) := by
  induction keys with
  | nil => simp
  | cons k keys ih =>
    obtain ⟨hk, hkeys⟩ := List.nodup_cons.mp h
    have hsplit := List.filter_append_perm (fun a => decide (key a = k))
      (l.filter fun a => key a ∈ k :: keys)
    rw [List.flatMap_cons]
    refine (List.Perm.append ?_ ((ih hkeys).trans ?_)).trans hsplit
    · rw [List.filter_filter]
      refine List.Perm.of_eq (List.filter_congr fun a _ => ?_)
      by_cases ha : key a = k <;> simp [ha]
    · rw [List.filter_filter]
      refine List.Perm.of_eq (List.filter_congr fun a _ => ?_)
      by_cases ha : key a = k
      · simp [ha, hk]
      · simp [ha]

end Blocks
