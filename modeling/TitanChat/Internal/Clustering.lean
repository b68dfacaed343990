import Mathlib.Data.List.Perm.Basic
import TitanChat.Internal.WideColumn

/-!
# The order of a partition

A query of one partition lists its rows, each once, in the order of the clustering columns. Here the
columns ascend, and a partition is a function of the rest of the key. How a store finds the rows is
not said: a list of rows is a listing of the partition if there are keys that make it one.

## Main definitions

* `Cell.before`, `keyBefore`: the order of cells and of keys
* `Lists`: a list of rows is a listing of a partition

## Main results

* `keyBefore_asymm`
* `lists_filterMap`, `Lists.eq_of_pairwise`: keys that are in order give the listing
-/

namespace WideColumn

/-- The order of a column; cells of different types are not compared. -/
def Cell.before : Cell → Cell → Prop
  | .text s, .text t => s < t
  | .int i, .int j => i < j
  | .timestamp s, .timestamp t => s < t
  | _, _ => False

/-- The order of the clustering columns: the first that differs decides. -/
def keyBefore : List Cell → List Cell → Prop
  | a :: as, b :: bs => a.before b ∨ a = b ∧ keyBefore as bs
  | _, _ => False

theorem Cell.before_asymm {a b : Cell} (h : a.before b) : ¬b.before a := by
  cases a <;> cases b <;> simp only [before] at h ⊢
  · exact String.lt_asymm h
  · omega
  · omega

theorem keyBefore_asymm {as bs : List Cell} (h : keyBefore as bs) : ¬keyBefore bs as := by
  induction as generalizing bs with
  | nil => exact absurd h not_false
  | cons a as ih =>
    cases bs with
    | nil => exact absurd h not_false
    | cons b bs =>
      rintro (hb | ⟨hb, htail⟩)
      · rcases h with ha | ⟨rfl, -⟩
        · exact Cell.before_asymm ha hb
        · exact Cell.before_asymm hb hb
      · rcases h with ha | ⟨-, htail'⟩
        · exact Cell.before_asymm ha (hb ▸ ha)
        · exact ih htail' htail

/-- The rows are those of the partition, each once and in the order `r` of the keys. -/
def Lists {ρ : Type} (r : List Cell → List Cell → Prop) (partition : List Cell → Option ρ)
    (rows : List ρ) : Prop :=
  ∃ keys : List (List Cell), keys.Pairwise r ∧ (∀ key, key ∈ keys ↔ (partition key).isSome) ∧
    rows = keys.filterMap partition

theorem Lists.mem_iff {ρ : Type} {r : List Cell → List Cell → Prop}
    {partition : List Cell → Option ρ} {rows : List ρ} (h : Lists r partition rows) {row : ρ} :
    row ∈ rows ↔ ∃ key, partition key = some row := by
  obtain ⟨keys, -, hkeys, rfl⟩ := h
  rw [List.mem_filterMap]
  refine ⟨fun ⟨key, _, hkey⟩ => ⟨key, hkey⟩, fun ⟨key, hkey⟩ => ⟨key, ?_, hkey⟩⟩
  exact (hkeys key).mpr (Option.isSome_of_eq_some hkey)

/-- To list a partition, look for its rows among keys in order. -/
theorem lists_filterMap {ρ : Type} {r : List Cell → List Cell → Prop}
    {partition : List Cell → Option ρ} {keys : List (List Cell)} (hs : keys.Pairwise r)
    (h : ∀ key, (partition key).isSome → key ∈ keys) :
    Lists r partition (keys.filterMap partition) := by
  refine ⟨keys.filter fun key => (partition key).isSome, hs.filter _, fun key => ?_, ?_⟩
  · rw [List.mem_filter, and_iff_right_iff_imp]
    exact h key
  · rw [List.filterMap_filter]
    refine List.filterMap_congr fun key _ => ?_
    cases hkey : partition key with
    | none => simp
    | some row => simp

/-- Keys in order are distinct. -/
theorem nodup_of_pairwise {keys : List (List Cell)} (h : keys.Pairwise keyBefore) : keys.Nodup := by
  refine h.imp fun {a b} hlt heq => ?_
  exact keyBefore_asymm hlt (heq ▸ heq ▸ hlt)

/-- Keys in order are determined by which they are. -/
theorem eq_of_pairwise {as bs : List (List Cell)} (ha : as.Pairwise keyBefore)
    (hb : bs.Pairwise keyBefore) (hmem : ∀ key, key ∈ as ↔ key ∈ bs) : as = bs := by
  refine List.Perm.eq_of_pairwise (fun a b _ _ hab hba => ?_) ha hb
    ((List.perm_ext_iff_of_nodup (nodup_of_pairwise ha) (nodup_of_pairwise hb)).mpr hmem)
  exact absurd hba (keyBefore_asymm hab)

/-- **Keys in order are the listing.** -/
theorem Lists.eq_of_pairwise {ρ : Type} {partition : List Cell → Option ρ} {rows : List ρ}
    (h : Lists keyBefore partition rows) {keys : List (List Cell)}
    (hmem : ∀ key, key ∈ keys ↔ (partition key).isSome) (hs : keys.Pairwise keyBefore) :
    rows = keys.filterMap partition := by
  obtain ⟨keys', hs', hmem', rfl⟩ := h
  rw [WideColumn.eq_of_pairwise hs' hs fun key => (hmem' key).trans (hmem key).symm]

end WideColumn
