import Mathlib.Data.List.Nodup
import Mathlib.Data.List.Sort
import Mathlib.Data.Prod.Lex

/-!
# The first of a list, sorted by a key

Some rows are sorted, the greatest key first, and the first `n` are kept. Two questions are answered
here without the sort.

Which rows are they? A stable sort decides equal keys by the position, so a row is told from its
copies by its index. It is among the first `n` exactly if fewer than `n` rows come before it, and
to say so one only counts.

And when is a list the first `n` of a ranking, if every subject may have more than one row and is
to be ranked once, by its greatest? The rest of the ranking need not be known: each row that is not
in the list and has no better row of its subject there must be at the end of a full list.

## Main definitions

* `descending`: the stable sort
* `place`, `rank`, `Leads`: a row with its index, and how many come before it
* `IsRanking`: all subjects, once each
* `IsTop`: the first of them
* `Covered`: what must be true of a row that is not among the first

## Main results

* `exists_leads`: which rows are the first `n`
* `exists_ranking`, `exists_ranking_take_iff`: there is a ranking, and what its first `n` are
* `isTop_take_descending_iff`: when sorting and truncating gives them
-/

namespace Ranking

variable {α κ : Type*} [LinearOrder κ]

/-! ### Stable sorting -/

/-- The greatest key first; equal keys stay in order. -/
def descending (key : α → κ) (l : List α) : List α := l.insertionSort fun a b => key b ≤ key a

/-- Where an element with its index belongs. -/
def place (key : α → κ) (p : α × ℕ) : κᵒᵈ ×ₗ ℕ := toLex (OrderDual.toDual (key p.1), p.2)

/-- How many elements of the list come before this one. -/
def rank (key : α → κ) (l : List α) (p : α × ℕ) : ℕ :=
  l.zipIdx.countP fun q => place key q < place key p

variable {key : α → κ} {l : List α} {n : ℕ}

theorem place_le_iff {p q : α × ℕ} :
    place key p ≤ place key q ↔ key q.1 < key p.1 ∨ key p.1 = key q.1 ∧ p.2 ≤ q.2 :=
  Prod.Lex.toLex_le_toLex

theorem place_le_iff_of_lt {p q : α × ℕ} (h : p.2 < q.2) :
    place key p ≤ place key q ↔ key q.1 ≤ key p.1 := by
  rw [place_le_iff, and_iff_left h.le, le_iff_lt_or_eq, eq_comm]

section Map

variable {β γ : Type*} (r : β → β → Prop) (s : γ → γ → Prop) [DecidableRel r] [DecidableRel s]
  (f : β → γ)

theorem map_orderedInsert {a : β} {l : List β} (h : ∀ b ∈ l, r a b ↔ s (f a) (f b)) :
    (l.orderedInsert r a).map f = (l.map f).orderedInsert s (f a) := by
  induction l with
  | nil => rfl
  | cons b l ih =>
    rw [List.forall_mem_cons] at h
    rw [List.map_cons, List.orderedInsert_cons, List.orderedInsert_cons]
    by_cases hab : r a b
    · rw [if_pos hab, if_pos (h.1.mp hab), List.map_cons, List.map_cons]
    · rw [if_neg hab, if_neg fun hs => hab (h.1.mpr hs), List.map_cons, ih h.2]

/-- Insertion compares an element only with those that come later. -/
theorem map_insertionSort_of_pairwise {l : List β}
    (h : l.Pairwise fun a b => r a b ↔ s (f a) (f b)) :
    (l.insertionSort r).map f = (l.map f).insertionSort s := by
  induction l with
  | nil => rfl
  | cons a l ih =>
    rw [List.pairwise_cons] at h
    rw [List.insertionSort_cons, List.map_cons, List.insertionSort_cons, ← ih h.2]
    exact map_orderedInsert r s f fun b hb => h.1 b ((List.mem_insertionSort r).mp hb)

end Map

theorem pairwise_lt_zipIdx (l : List α) (i : ℕ) : (l.zipIdx i).Pairwise fun p q => p.2 < q.2 := by
  induction l generalizing i with
  | nil => exact .nil
  | cons a l ih =>
    rw [List.zipIdx_cons, List.pairwise_cons]
    exact ⟨fun q hq => List.le_snd_of_mem_zipIdx hq, ih (i + 1)⟩

/-- The first `n` of a list in strict order are those that fewer than `n` come before. -/
theorem mem_take_iff_of_pairwise {β ι : Type*} [LinearOrder ι] {g : β → ι} {l : List β}
    (h : l.Pairwise fun a b => g a < g b) {p : β} :
    p ∈ l.take n ↔ p ∈ l ∧ l.countP (fun q => g q < g p) < n := by
  induction l generalizing n with
  | nil => simp
  | cons a l ih =>
    rw [List.pairwise_cons] at h
    cases n with
    | zero => simp
    | succ n =>
      rw [List.take_succ_cons, List.mem_cons, List.mem_cons, ih h.2]
      constructor
      · rintro (rfl | ⟨hp, hcount⟩)
        · have hnone : l.countP (fun q => g q < g p) = 0 := by
            rw [List.countP_eq_zero]
            intro b hb
            simpa using (h.1 b hb).le
          refine ⟨Or.inl rfl, ?_⟩
          rw [List.countP_cons_of_neg (by simp), hnone]
          exact n.succ_pos
        · refine ⟨Or.inr hp, ?_⟩
          rw [List.countP_cons_of_pos (by simpa using h.1 p hp)]
          omega
      · rintro ⟨rfl | hp, hcount⟩
        · exact Or.inl rfl
        · rw [List.countP_cons_of_pos (by simpa using h.1 p hp)] at hcount
          exact Or.inr ⟨hp, by omega⟩

/-- If there is something beyond the first `n`, there are `n`. -/
theorem length_take_of_mem_drop {a : α} (h : a ∈ l.drop n) : (l.take n).length = n := by
  refine List.length_take_of_le (not_lt.mp fun hlt => ?_)
  rw [List.drop_eq_nil_of_le hlt.le] at h
  exact absurd h List.not_mem_nil

theorem pairwise_descending (key : α → κ) (l : List α) :
    (descending key l).Pairwise fun a b => key b ≤ key a := by
  let r : α → α → Prop := fun a b => key b ≤ key a
  have : Std.Total r := ⟨fun a b => le_total (key b) (key a)⟩
  have : IsTrans α r := ⟨fun a b c hab hbc => le_trans hbc hab⟩
  exact List.pairwise_insertionSort r l

theorem perm_descending (key : α → κ) (l : List α) : (descending key l).Perm l :=
  List.perm_insertionSort _ l

/-- An element of the list with its index, which fewer than `n` come before. -/
structure Leads (key : α → κ) (l : List α) (n : ℕ) (p : α × ℕ) : Prop where
  mem : p ∈ l.zipIdx
  rank_lt : rank key l p < n

theorem Leads.fst_mem {p : α × ℕ} (h : Leads key l n p) : p.1 ∈ l := by
  have hmem := List.mem_map_of_mem (f := Prod.fst) h.mem
  rwa [List.zipIdx_map_fst] at hmem

/-- **The first `n`** are the elements that lead. -/
theorem exists_leads (key : α → κ) (l : List α) (n : ℕ) :
    ∃ shown : List (α × ℕ), (descending key l).take n = shown.map Prod.fst ∧ shown.Nodup ∧
      ∀ p, p ∈ shown ↔ Leads key l n p := by
  let r : α × ℕ → α × ℕ → Prop := fun p q => place key p ≤ place key q
  have : Std.Total r := ⟨fun p q => le_total (place key p) (place key q)⟩
  have : IsTrans (α × ℕ) r := ⟨fun p q q' => le_trans⟩
  let sorted := l.zipIdx.insertionSort r
  have hperm : sorted.Perm l.zipIdx := List.perm_insertionSort r _
  have hidx := pairwise_lt_zipIdx l 0
  have hnodup : l.zipIdx.Nodup := hidx.imp fun hlt heq => hlt.ne (congrArg Prod.snd heq)
  have hlt : sorted.Pairwise fun p q => place key p < place key q := by
    have hle : sorted.Pairwise r := List.pairwise_insertionSort r _
    refine (hle.and (hperm.nodup_iff.mpr hnodup)).imp_of_mem fun {p q} hp hq hpq => ?_
    refine lt_of_le_of_ne hpq.1 fun heq => hpq.2 ?_
    have hsnd : (l.zipIdx.map Prod.snd).Nodup := List.pairwise_map.mpr (hidx.imp fun h => h.ne)
    exact List.inj_on_of_nodup_map hsnd (hperm.mem_iff.mp hp) (hperm.mem_iff.mp hq)
      (congrArg (fun x => (ofLex x).2) heq)
  have hmap : sorted.map Prod.fst = descending key l := by
    have h := map_insertionSort_of_pairwise r (fun a b => key b ≤ key a) Prod.fst
      (hidx.imp fun h => place_le_iff_of_lt h)
    rwa [List.zipIdx_map_fst] at h
  refine ⟨sorted.take n, ?_, ?_, fun p => ?_⟩
  · rw [List.map_take, hmap]
  · exact (hperm.nodup_iff.mpr hnodup).sublist (List.take_sublist ..)
  · rw [mem_take_iff_of_pairwise hlt, hperm.mem_iff, hperm.countP_eq]
    exact ⟨fun h => ⟨h.1, h.2⟩, fun h => ⟨h.mem, h.rank_lt⟩⟩

theorem mem_take_descending_iff {a : α} :
    a ∈ (descending key l).take n ↔ ∃ p, Leads key l n p ∧ p.1 = a := by
  obtain ⟨shown, htake, -, hshown⟩ := exists_leads key l n
  simp only [htake, List.mem_map, hshown]

/-- No element of the first `n` is less than `a`, and there are `n`. -/
theorem full_iff {a : α} :
    (((descending key l).take n).length = n ∧ ∀ c ∈ (descending key l).take n, key a ≤ key c) ↔
      n ≤ l.countP fun c => key a ≤ key c := by
  rw [← (perm_descending key l).countP_eq]
  constructor
  · rintro ⟨hlength, hall⟩
    have hcount := (List.countP_eq_length (p := fun c => decide (key a ≤ key c))).mpr
      fun c hc => decide_eq_true (hall c hc)
    calc n = ((descending key l).take n).countP fun c => key a ≤ key c := by rw [hcount, hlength]
      _ ≤ _ := (List.take_sublist ..).countP_le
  · intro hcount
    have hlength : ((descending key l).take n).length = n :=
      List.length_take_of_le (hcount.trans List.countP_le_length)
    refine ⟨hlength, fun c hc => ?_⟩
    by_contra hlt
    have hsorted := pairwise_descending key l
    rw [← List.take_append_drop n (descending key l)] at hsorted hcount
    have hrest : ((descending key l).drop n).countP (fun c => key a ≤ key c) = 0 := by
      rw [List.countP_eq_zero]
      intro d hd
      have hdc := (List.pairwise_append.mp hsorted).2.2 c hc d hd
      simpa using hdc.trans_lt (not_le.mp hlt)
    rw [List.countP_append, hrest, Nat.add_zero] at hcount
    have hcount : ((descending key l).take n).countP (fun c => key a ≤ key c) =
        ((descending key l).take n).length :=
      le_antisymm List.countP_le_length (by rwa [hlength])
    exact hlt (of_decide_eq_true (List.countP_eq_length.mp hcount c hc))

/-- An element of the list is among the first `n`, or they are not less. -/
theorem leads_or_full {a : α} (ha : a ∈ l) :
    (∃ p, Leads key l n p ∧ p.1 = a) ∨ n ≤ l.countP fun c => key a ≤ key c := by
  rw [← mem_take_descending_iff, ← full_iff]
  have hsorted := pairwise_descending key l
  have ha := (perm_descending key l).mem_iff.mpr ha
  rw [← List.take_append_drop n (descending key l)] at hsorted ha
  refine (List.mem_append.mp ha).imp_right fun hdrop => ⟨length_take_of_mem_drop hdrop, ?_⟩
  exact fun c hc => (List.pairwise_append.mp hsorted).2.2 c hc a hdrop

/-! ### One row for each subject -/

section Subjects

variable {σ : Type*}

/-- All subjects of the rows that satisfy `S`, the greatest first, each with its greatest row. -/
structure IsRanking (key : α → κ) (subject : α → σ) (S : α → Prop) (cs : List α) : Prop where
  sorted : cs.Pairwise fun a b => key b ≤ key a
  once : (cs.map subject).Nodup
  mem : ∀ c ∈ cs, S c
  complete : ∀ a, S a → ∃ c ∈ cs, subject c = subject a ∧ key a ≤ key c

variable {subject : α → σ} {S : α → Prop}

variable (subject) in
/-- Of rows in ascending order, the last of each subject is the greatest. -/
theorem exists_mem_pwFilter [DecidableEq σ] {l : List α}
    (h : l.Pairwise fun a b => key a ≤ key b) {a : α} (ha : a ∈ l) :
    ∃ c ∈ l.pwFilter fun a b => subject a ≠ subject b,
      subject c = subject a ∧ key a ≤ key c := by
  induction l with
  | nil => exact absurd ha List.not_mem_nil
  | cons b l ih =>
    rw [List.pairwise_cons] at h
    by_cases hb : ∀ c ∈ l.pwFilter (fun a b => subject a ≠ subject b), subject b ≠ subject c
    · rw [List.pwFilter_cons_of_pos hb]
      rcases List.mem_cons.mp ha with rfl | ha
      · exact ⟨a, List.mem_cons_self, rfl, le_rfl⟩
      · obtain ⟨c, hc, hac⟩ := ih h.2 ha
        exact ⟨c, List.mem_cons_of_mem _ hc, hac⟩
    · rw [List.pwFilter_cons_of_neg hb]
      rcases List.mem_cons.mp ha with rfl | ha
      · push Not at hb
        obtain ⟨c, hc, hac⟩ := hb
        exact ⟨c, hc, hac.symm, h.1 c (List.pwFilter_subset _ hc)⟩
      · exact ih h.2 ha

/-- **Finitely many rows have a ranking.** -/
theorem exists_ranking (key : α → κ) (subject : α → σ) (hS : ∃ l : List α, ∀ a, S a ↔ a ∈ l) :
    ∃ cs, IsRanking key subject S cs := by
  classical
  obtain ⟨l, hl⟩ := hS
  let r : α → α → Prop := fun a b => key a ≤ key b
  have : Std.Total r := ⟨fun a b => le_total (key a) (key b)⟩
  have : IsTrans α r := ⟨fun a b c => le_trans⟩
  have hsorted : (l.insertionSort r).Pairwise r := List.pairwise_insertionSort r l
  let last := (l.insertionSort r).pwFilter fun a b => subject a ≠ subject b
  refine ⟨last.reverse, ?_, ?_, fun c hc => ?_, fun a ha => ?_⟩
  · rw [List.pairwise_reverse]
    exact hsorted.sublist (List.pwFilter_sublist _)
  · rw [List.map_reverse, List.nodup_reverse]
    exact List.pairwise_map.mpr (List.pairwise_pwFilter _)
  · rw [List.mem_reverse] at hc
    exact (hl c).mpr ((List.mem_insertionSort r).mp (List.pwFilter_subset _ hc))
  · have ha := (List.mem_insertionSort r).mpr ((hl a).mp ha)
    obtain ⟨c, hc, hac⟩ := exists_mem_pwFilter subject hsorted ha
    exact ⟨c, List.mem_reverse.mpr hc, hac⟩

/-- The first `n` of a ranking, without the rest. -/
structure IsTop (key : α → κ) (subject : α → σ) (S : α → Prop) (n : ℕ) (cs : List α) : Prop where
  length : cs.length ≤ n
  sorted : cs.Pairwise fun a b => key b ≤ key a
  once : (cs.map subject).Nodup
  mem : ∀ c ∈ cs, S c
  /-- Whoever is not in the list would come after it. -/
  covers : ∀ a, S a → (∃ c ∈ cs, subject c = subject a ∧ key a ≤ key c) ∨
    cs.length = n ∧ ∀ c ∈ cs, key a ≤ key c

theorem IsRanking.isTop {cs : List α} (h : IsRanking key subject S cs) (n : ℕ) :
    IsTop key subject S n (cs.take n) where
  length := List.length_take_le ..
  sorted := h.sorted.sublist (List.take_sublist ..)
  once := h.once.sublist ((List.take_sublist ..).map subject)
  mem c hc := h.mem c (List.mem_of_mem_take hc)
  covers a ha := by
    obtain ⟨c, hc, hca, hle⟩ := h.complete a ha
    have hsplit := h.sorted
    rw [← List.take_append_drop n cs] at hc hsplit
    rcases List.mem_append.mp hc with hc | hc
    · exact Or.inl ⟨c, hc, hca, hle⟩
    · refine Or.inr ⟨length_take_of_mem_drop hc, fun d hd => ?_⟩
      exact hle.trans ((List.pairwise_append.mp hsplit).2.2 d hd c hc)

/-- The rest is a ranking of the other subjects. -/
theorem IsTop.exists_ranking {cs : List α} (h : IsTop key subject S n cs)
    (hS : ∃ l : List α, ∀ a, S a ↔ a ∈ l) :
    ∃ all, IsRanking key subject S all ∧ cs = all.take n := by
  classical
  let others : α → Prop := fun a => S a ∧ ∀ c ∈ cs, subject c ≠ subject a
  have hothers : ∃ l : List α, ∀ a, others a ↔ a ∈ l := by
    obtain ⟨l, hl⟩ := hS
    refine ⟨l.filter fun a => ∀ c ∈ cs, subject c ≠ subject a, fun a => ?_⟩
    rw [List.mem_filter, decide_eq_true_eq, ← hl]
  obtain ⟨rest, hrest⟩ := Ranking.exists_ranking key subject hothers
  have hfull : ∀ d ∈ rest, cs.length = n ∧ ∀ c ∈ cs, key d ≤ key c := fun d hd =>
    (h.covers d (hrest.mem d hd).1).resolve_left fun ⟨c, hc, hcd, _⟩ =>
      (hrest.mem d hd).2 c hc hcd
  refine ⟨cs ++ rest, ⟨?_, ?_, fun c hc => ?_, fun a ha => ?_⟩, ?_⟩
  · exact List.pairwise_append.mpr ⟨h.sorted, hrest.sorted, fun c hc d hd => (hfull d hd).2 c hc⟩
  · rw [List.map_append, List.nodup_append']
    refine ⟨h.once, hrest.once, fun s hs hs' => ?_⟩
    obtain ⟨c, hc, rfl⟩ := List.mem_map.mp hs
    obtain ⟨d, hd, heq⟩ := List.mem_map.mp hs'
    exact (hrest.mem d hd).2 c hc heq.symm
  · rcases List.mem_append.mp hc with hc | hc
    · exact h.mem c hc
    · exact (hrest.mem c hc).1
  · by_cases hshown : ∃ c ∈ cs, subject c = subject a
    · obtain ⟨c, hc, hca⟩ := hshown
      rcases h.covers a ha with ⟨d, hd, hda⟩ | ⟨-, hall⟩
      · exact ⟨d, List.mem_append_left _ hd, hda⟩
      · exact ⟨c, List.mem_append_left _ hc, hca, hall c hc⟩
    · push Not at hshown
      obtain ⟨c, hc, hca⟩ := hrest.complete a ⟨ha, hshown⟩
      exact ⟨c, List.mem_append_right _ hc, hca⟩
  · cases hcases : rest with
    | nil => rw [List.append_nil, List.take_of_length_le h.length]
    | cons d rest =>
      rw [List.take_left' (hfull d (hcases ▸ List.mem_cons_self)).1]

/-- **The first `n` of a ranking.** -/
theorem exists_ranking_take_iff {cs : List α} (hS : ∃ l : List α, ∀ a, S a ↔ a ∈ l) :
    (∃ all, IsRanking key subject S all ∧ cs = all.take n) ↔ IsTop key subject S n cs := by
  refine ⟨?_, fun h => h.exists_ranking hS⟩
  rintro ⟨all, hall, rfl⟩
  exact hall.isTop n

/-! ### The first of a sorted list -/

/-- No subject has two elements that lead. -/
def Single (key : α → κ) (subject : α → σ) (l : List α) (n : ℕ) : Prop :=
  ∀ p q, Leads key l n p → Leads key l n q → subject p.1 = subject q.1 → p = q

theorem nodup_iff_single :
    (((descending key l).take n).map subject).Nodup ↔ Single key subject l n := by
  obtain ⟨shown, htake, hnodup, hshown⟩ := exists_leads key l n
  rw [htake, List.map_map, List.nodup_map_iff_inj_on hnodup]
  simp only [hshown, Function.comp_apply]
  exact ⟨fun h p q hp hq => h p hp q hq, fun h p hp q hq => h p q hp hq⟩

/-- Someone of the same subject leads and is not less, or `n` of the list are not less. -/
def Covered (key : α → κ) (subject : α → σ) (l : List α) (n : ℕ) (a : α) : Prop :=
  (∃ p, Leads key l n p ∧ subject p.1 = subject a ∧ key a ≤ key p.1) ∨
    n ≤ l.countP fun c => key a ≤ key c

theorem covered_of_mem {a : α} (ha : a ∈ l) : Covered key subject l n a := by
  refine (leads_or_full ha).imp_left ?_
  rintro ⟨p, hp, rfl⟩
  exact ⟨p, hp, rfl, le_rfl⟩

/-- **When sorting and truncating gives the first of a ranking.** -/
theorem isTop_take_descending_iff :
    IsTop key subject S n ((descending key l).take n) ↔
      (∀ p, Leads key l n p → S p.1) ∧ Single key subject l n ∧
        ∀ a, S a → Covered key subject l n a := by
  have hcovers : ∀ a, ((∃ c ∈ (descending key l).take n, subject c = subject a ∧ key a ≤ key c) ∨
      ((descending key l).take n).length = n ∧
        ∀ c ∈ (descending key l).take n, key a ≤ key c) ↔ Covered key subject l n a := by
    intro a
    rw [full_iff, Covered]
    refine or_congr_left ⟨?_, ?_⟩
    · rintro ⟨c, hc, hca⟩
      obtain ⟨p, hp, rfl⟩ := mem_take_descending_iff.mp hc
      exact ⟨p, hp, hca⟩
    · rintro ⟨p, hp, hpa⟩
      exact ⟨p.1, mem_take_descending_iff.mpr ⟨p, hp, rfl⟩, hpa⟩
  constructor
  · intro h
    refine ⟨fun p hp => h.mem _ ?_, nodup_iff_single.mp h.once, fun a ha => ?_⟩
    · exact mem_take_descending_iff.mpr ⟨p, hp, rfl⟩
    · exact (hcovers a).mp (h.covers a ha)
  · rintro ⟨hmem, honly, hall⟩
    refine ⟨List.length_take_le .., (pairwise_descending key l).sublist (List.take_sublist ..),
      nodup_iff_single.mpr honly, fun c hc => ?_, fun a ha => (hcovers a).mpr (hall a ha)⟩
    obtain ⟨p, hp, rfl⟩ := mem_take_descending_iff.mp hc
    exact hmem p hp

end Subjects

end Ranking
