import Mathlib.Algebra.Order.Monoid.Unbundled.Basic
import Mathlib.Data.List.Chain
import Mathlib.Data.List.Flatten
import Mathlib.Order.Monotone.Basic
import Mathlib.Data.List.NodupEquivFin

/-!
# Windows that open at the first event

A stream of instants is cut into windows of a fixed width `W`: a window opens at the first instant
that no earlier window covers. A counter that is dropped `W` after it was created cuts its events
in this way, and a counter that stops at `L` lets through the first `L` events of each window.

A *sliding* limit is a stronger promise: no interval of width `W`, wherever it starts, holds more
than `L` events. `sliding_iff_spread` turns the sliding limit into a statement about pairs, an event
and the `L`-th after it, and `spread_granted_iff` says which streams keep it when the events let
through are those of a fixed window: the crowded part of a window must not come too early after
the crowded part of the window before.
-/

namespace FixedWindow

variable {T : Type*} [LinearOrder T] [Add T] {W o t : T} {L : ℕ} {ts : List T}

/-- What a window opened at `o` still covers, and the windows after it. -/
def cut (W o : T) : List T → List T × List (List T)
  | [] => ([], [])
  | t :: ts =>
    if t < o + W then (t :: (cut W o ts).1, (cut W o ts).2)
    else ([], (t :: (cut W t ts).1) :: (cut W t ts).2)

/-- The windows of a stream. -/
def windows (W : T) : List T → List (List T)
  | [] => []
  | t :: ts => (t :: (cut W t ts).1) :: (cut W t ts).2

/-- The first `L` instants of each window. -/
def granted (W : T) (L : ℕ) (ts : List T) : List T := (windows W ts).flatMap (List.take L)

theorem cut_cons_of_lt (h : t < o + W) :
    cut W o (t :: ts) = (t :: (cut W o ts).1, (cut W o ts).2) := if_pos h

/-- An instant that the open window does not cover opens the next one. -/
theorem cut_cons_of_not_lt (h : ¬t < o + W) : cut W o (t :: ts) = ([], windows W (t :: ts)) :=
  if_neg h

theorem lt_of_mem_cut {x : T} (h : x ∈ (cut W o ts).1) : x < o + W := by
  induction ts with
  | nil => exact absurd h List.not_mem_nil
  | cons t ts ih =>
    by_cases ht : t < o + W
    · rw [cut_cons_of_lt ht] at h
      obtain rfl | h := List.mem_cons.mp h
      · exact ht
      · exact ih h
    · rw [cut_cons_of_not_lt ht] at h
      exact absurd h List.not_mem_nil

/-- Nothing is lost and nothing changes its place. -/
theorem cut_append (W o : T) (ts : List T) : (cut W o ts).1 ++ (cut W o ts).2.flatten = ts := by
  induction ts generalizing o with
  | nil => rfl
  | cons t ts ih =>
    by_cases ht : t < o + W
    · rw [cut_cons_of_lt ht, List.cons_append, ih]
    · rw [cut_cons_of_not_lt ht, windows, List.flatten_cons, List.nil_append, List.cons_append, ih]

theorem flatten_windows : (windows W ts).flatten = ts := by
  cases ts with
  | nil => rfl
  | cons t ts => rw [windows, List.flatten_cons, List.cons_append, cut_append]

theorem mem_of_mem_later {x : T} (h : x ∈ (cut W o ts).2.flatten) : x ∈ ts := by
  rw [← cut_append W o ts]
  exact List.mem_append_right _ h

/-- The windows after the open one start when it has ended. -/
theorem le_of_mem_later {x : T} (hs : ts.Pairwise (· ≤ ·)) (h : x ∈ (cut W o ts).2.flatten) :
    o + W ≤ x := by
  induction ts with
  | nil => simp [cut] at h
  | cons t ts ih =>
    obtain ⟨hle, hs⟩ := List.pairwise_cons.mp hs
    by_cases ht : t < o + W
    · rw [cut_cons_of_lt ht] at h
      exact ih hs h
    · rw [cut_cons_of_not_lt ht, flatten_windows] at h
      obtain rfl | h := List.mem_cons.mp h
      · exact not_lt.mp ht
      · exact (not_lt.mp ht).trans (hle x h)

/-! ### The sliding limit -/

/-- No interval of width `W` holds more than `L` of the instants. -/
def Sliding (W : T) (L : ℕ) (xs : List T) : Prop :=
  ∀ t, (xs.filter fun x => t ≤ x ∧ x < t + W).length ≤ L

/-- Each instant and the `L`-th after it are `W` apart. -/
def Spread (W : T) (L : ℕ) (xs : List T) : Prop := ∀ p ∈ xs.zip (xs.drop L), p.1 + W ≤ p.2

theorem spread_iff_getElem {xs : List T} :
    Spread W L xs ↔ ∀ i x y, xs[i]? = some x → xs[i + L]? = some y → x + W ≤ y := by
  constructor
  · intro h i x y hx hy
    refine h (x, y) (List.mem_iff_getElem?.mpr ⟨i, ?_⟩)
    rw [List.getElem?_zip_eq_some, List.getElem?_drop, Nat.add_comm]
    exact ⟨hx, hy⟩
  · intro h p hp
    obtain ⟨i, hi⟩ := List.mem_iff_getElem?.mp hp
    rw [List.getElem?_zip_eq_some, List.getElem?_drop, Nat.add_comm] at hi
    exact h i p.1 p.2 hi.1 hi.2

omit [Add T] in
theorem le_of_getElem? {xs : List T} (hs : xs.Pairwise (· ≤ ·)) {i j : ℕ} {x y : T} (hij : i ≤ j)
    (hx : xs[i]? = some x) (hy : xs[j]? = some y) : x ≤ y := by
  obtain ⟨hi, rfl⟩ := List.getElem?_eq_some_iff.mp hx
  obtain ⟨hj, rfl⟩ := List.getElem?_eq_some_iff.mp hy
  rcases hij.lt_or_eq with hlt | rfl
  · exact List.pairwise_iff_getElem.mp hs i j hi hj hlt
  · exact le_rfl

/-- An interval that holds `L + 1` of the instants starts with one and holds the `L`-th after
it. -/
theorem sliding_iff_spread [AddRightMono T] {xs : List T} (hs : xs.Pairwise (· ≤ ·)) :
    Sliding W L xs ↔ Spread W L xs := by
  rw [spread_iff_getElem]
  constructor
  · intro h i x y hx hy
    by_contra hlt
    rw [not_le] at hlt
    have hlen : i + L < xs.length := (List.getElem?_eq_some_iff.mp hy).1
    have hin : ∀ z ∈ (xs.drop i).take (L + 1), x ≤ z ∧ z < x + W := by
      intro z hz
      obtain ⟨j, hj⟩ := List.mem_iff_getElem?.mp hz
      have hjL : j < L + 1 := (List.getElem?_eq_some_iff.mp hj).1.trans_le (List.length_take_le _ _)
      rw [List.getElem?_take_of_lt hjL, List.getElem?_drop] at hj
      exact ⟨le_of_getElem? hs (Nat.le_add_right i j) hx hj,
        (le_of_getElem? hs (by omega) hj hy).trans_lt hlt⟩
    have hsub : ((xs.drop i).take (L + 1)).Sublist
        (xs.filter fun z => x ≤ z ∧ z < x + W) := by
      rw [← List.filter_eq_self.mpr fun z hz => decide_eq_true (hin z hz)]
      exact ((List.take_sublist _ _).trans (List.drop_sublist _ _)).filter _
    have hle := hsub.length_le.trans (h x)
    rw [List.length_take, List.length_drop] at hle
    omega
  · intro h t
    by_contra hlt
    rw [not_le] at hlt
    obtain ⟨f, hf⟩ := List.sublist_iff_exists_orderEmbedding_getElem?_eq.mp
      (List.filter_sublist (p := fun x => decide (t ≤ x ∧ x < t + W)) (l := xs))
    have hin : ∀ {n z}, (xs.filter fun x => t ≤ x ∧ x < t + W)[n]? = some z →
        t ≤ z ∧ z < t + W := fun hz =>
      of_decide_eq_true (List.mem_filter.mp (List.mem_of_getElem? hz)).2
    have h₀ := List.getElem?_eq_getElem (Nat.zero_lt_of_lt hlt)
    have hL := List.getElem?_eq_getElem hlt
    have hlen : f L < xs.length := (List.getElem?_eq_some_iff.mp ((hf L).symm.trans hL)).1
    have hfar : f 0 + L ≤ f L := by
      simpa [Nat.add_comm] using f.strictMono.add_le_nat L 0
    have hmid := List.getElem?_eq_getElem (l := xs) (hfar.trans_lt hlen)
    have hgap := h (f 0) _ _ ((hf 0).symm.trans h₀) hmid
    have hend := le_of_getElem? hs hfar hmid ((hf L).symm.trans hL)
    exact absurd ((add_le_add_left (hin h₀).1 W).trans (hgap.trans hend)) (hin hL).2.not_ge

/-! ### The first instants of each window -/

/-- The crowded parts of two windows in a row keep apart: of the first `L` of each, those that are
`L` after one another are `W` apart. -/
def Spaced (W : T) (L : ℕ) (A B : List T) : Prop :=
  ∀ p ∈ (A.take L).zip ((B.take L).drop (L - A.length)), p.1 + W ≤ p.2

instance (W : T) (L : ℕ) (A B : List T) : Decidable (Spaced W L A B) :=
  inferInstanceAs (Decidable (∀ p ∈ (A.take L).zip ((B.take L).drop (L - A.length)), p.1 + W ≤ p.2))

theorem zip_append_left {α β : Type*} (as as' : List α) (bs : List β) :
    (as ++ as').zip bs = as.zip bs ++ as'.zip (bs.drop as.length) := by
  induction as generalizing bs with
  | nil => rfl
  | cons a as ih =>
    cases bs with
    | nil => simp
    | cons b bs => simp [ih]

theorem zip_append_right {α β : Type*} (as : List α) (bs bs' : List β) :
    as.zip (bs ++ bs') = as.zip bs ++ (as.drop bs.length).zip bs' := by
  induction bs generalizing as with
  | nil => simp
  | cons b bs ih =>
    cases as with
    | nil => simp
    | cons a as => simp [ih]

/-- One window in front: its first `L` against the rest, and the rest against itself. -/
theorem spread_take_append {A rest : List T} :
    Spread W L (A.take L ++ rest) ↔
      (∀ p ∈ (A.take L).zip (rest.drop (L - A.length)), p.1 + W ≤ p.2) ∧ Spread W L rest := by
  have hdrop : (A.take L ++ rest).drop L = rest.drop (L - A.length) := by
    rw [List.drop_append, List.length_take, List.drop_take, Nat.sub_self, List.take_zero,
      List.nil_append]
    congr 1
    omega
  have hback : (rest.drop (L - A.length)).drop (A.take L).length = rest.drop L := by
    rw [List.drop_drop, List.length_take]
    congr 1
    omega
  unfold Spread
  rw [hdrop, zip_append_left, hback, List.forall_mem_append]

omit [LinearOrder T] [Add T] in
theorem flatMap_take_sublist (ws : List (List T)) :
    (ws.flatMap (List.take L)).Sublist ws.flatten := by
  have h := List.Sublist.flatMap_right ws (f := List.take L) (g := id)
    fun A _ => List.take_sublist L A
  rwa [List.flatMap_id] at h

/-- Whatever lies two windows ahead is `W` away. -/
def Apart (W : T) : List (List T) → Prop
  | A :: B :: rest => (∀ x ∈ A, ∀ y ∈ rest.flatten, x + W ≤ y) ∧ Apart W (B :: rest)
  | _ => True

/-- Beyond the next window the distance is kept anyway. -/
theorem spaced_append_iff {A B : List T} {ws : List (List T)}
    (h : ∀ x ∈ A, ∀ y ∈ ws.flatten, x + W ≤ y) :
    (∀ p ∈ (A.take L).zip ((B.take L ++ ws.flatMap (List.take L)).drop (L - A.length)),
      p.1 + W ≤ p.2) ↔ Spaced W L A B := by
  rw [List.drop_append, zip_append_right, List.forall_mem_append]
  refine and_iff_left ?_
  rintro ⟨x, y⟩ hp
  obtain ⟨hx, hy⟩ := List.of_mem_zip hp
  have hy : y ∈ ws.flatten :=
    (flatMap_take_sublist ws).subset (List.mem_of_mem_drop hy)
  exact h x (List.mem_of_mem_take (List.mem_of_mem_drop hx)) y hy

theorem spread_iff_isChain {ws : List (List T)} (h : Apart W ws) :
    Spread W L (ws.flatMap (List.take L)) ↔ ws.IsChain (Spaced W L) := by
  induction ws with
  | nil => simp [Spread]
  | cons A ws ih =>
    rw [List.flatMap_cons, spread_take_append]
    cases ws with
    | nil => simp [Spread]
    | cons B ws =>
      rw [List.isChain_cons_cons, List.flatMap_cons, spaced_append_iff h.1, ← ih h.2,
        List.flatMap_cons]

theorem apart_cut [AddRightMono T] (hs : ts.Pairwise (· ≤ ·)) {A : List T}
    (hA : ∀ x ∈ A, ∀ y ∈ (cut W o ts).2.flatten, x ≤ y) : Apart W (A :: (cut W o ts).2) := by
  induction ts generalizing o A with
  | nil => trivial
  | cons t ts ih =>
    obtain ⟨hle, hs⟩ := List.pairwise_cons.mp hs
    by_cases ht : t < o + W
    · rw [cut_cons_of_lt ht] at hA ⊢
      exact ih hs hA
    · rw [cut_cons_of_not_lt ht] at hA ⊢
      refine ⟨fun x hx y hy => ?_, ih hs fun x hx y hy => ?_⟩
      · have hxt : x ≤ t := hA x hx t (List.mem_append_left _ List.mem_cons_self)
        exact (add_le_add_left hxt W).trans (le_of_mem_later hs hy)
      · obtain rfl | hx := List.mem_cons.mp hx
        · exact hle y (mem_of_mem_later hy)
        · exact (lt_of_mem_cut hx).le.trans (le_of_mem_later hs hy)

/-- **The exact rule.** The events that a fixed window lets through keep the sliding limit if and
only if each window of the stream is spaced from the next. -/
theorem spread_granted_iff [AddRightMono T] (hs : ts.Pairwise (· ≤ ·)) :
    Spread W L (granted W L ts) ↔ (windows W ts).IsChain (Spaced W L) := by
  refine spread_iff_isChain ?_
  cases ts with
  | nil => trivial
  | cons t ts =>
    obtain ⟨hle, hs⟩ := List.pairwise_cons.mp hs
    refine apart_cut hs fun x hx y hy => ?_
    obtain rfl | hx := List.mem_cons.mp hx
    · exact hle y (mem_of_mem_later hy)
    · exact (lt_of_mem_cut hx).le.trans (le_of_mem_later hs hy)

theorem granted_sublist : (granted W L ts).Sublist ts := by
  have h := flatMap_take_sublist (L := L) (windows W ts)
  rwa [flatten_windows] at h

/-- The sliding limit of what a fixed window lets through, read off the stream. -/
theorem sliding_granted_iff [AddRightMono T] (hs : ts.Pairwise (· ≤ ·)) :
    Sliding W L (granted W L ts) ↔ (windows W ts).IsChain (Spaced W L) := by
  rw [sliding_iff_spread (hs.sublist granted_sublist), spread_granted_iff hs]

/-! ### The counter that cuts them -/

/-- The last window that a counter has opened: its first instant, and the instants it has seen. -/
structure Window (T : Type*) where
  opened : T
  seen : ℕ
  deriving DecidableEq, Repr

/-- The window of the next instant: the last one if it still covers it, or a new one. -/
def Window.next (W : T) (w : Option (Window T)) (t : T) : Window T :=
  match w with
  | some w => if t < w.opened + W then { w with seen := w.seen + 1 } else ⟨t, 1⟩
  | none => ⟨t, 1⟩

theorem Window.next_of_lt {w : Window T} (h : t < w.opened + W) :
    Window.next W (some w) t = { w with seen := w.seen + 1 } := if_pos h

theorem Window.next_of_not_lt {w : Window T} (h : ¬t < w.opened + W) :
    Window.next W (some w) t = ⟨t, 1⟩ := if_neg h

theorem Window.opened_next_le {w : Option (Window T)} (h : ∀ v ∈ w, v.opened ≤ t) :
    (Window.next W w t).opened ≤ t := by
  cases w with
  | none => exact le_rfl
  | some w =>
    by_cases ht : t < w.opened + W
    · rw [next_of_lt ht]
      exact h w rfl
    · rw [next_of_not_lt ht]

end FixedWindow
