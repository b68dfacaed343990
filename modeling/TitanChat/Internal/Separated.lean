import Mathlib.Data.List.Infix

/-!
# Lists as separated text

Some words, none of which has the separator `x` in it, are written one after the other with `x`
before, between and after them. Then a stretch of words can be looked for as text: the text of some
words occurs in the text of others if and only if the words do, one after the other and in the same
order. For a single word that is membership.

Without the assumption on the words, splitting does not undo joining; `splitOn_intercalate_iff` says
when it does.
-/

namespace Separated

variable {α β : Type*} {x : α} {v w a b : List α} {ws p l : List (List α)}

/-- The words, each of them followed by the separator. -/
def ended (x : α) (ws : List (List α)) : List α := ws.flatMap (· ++ [x])

/-- The separator before, between and after the words. -/
def wrap (x : α) (ws : List (List α)) : List α := x :: ended x ws

theorem wrap_eq_intercalate (h : ws ≠ []) : wrap x ws = x :: ([x].intercalate ws ++ [x]) := by
  rw [wrap]
  refine congrArg _ ?_
  induction ws with
  | nil => exact absurd rfl h
  | cons w ws ih =>
    cases ws with
    | nil => simp [ended]
    | cons v ws =>
      have ih := ih (List.cons_ne_nil v ws)
      rw [ended, List.flatMap_cons, ← ended, ih, List.intercalate_cons_cons]
      simp

/-- Up to the first separator, two texts agree on the word. -/
theorem append_cons_prefix_iff (hw : x ∉ w) (hv : x ∉ v) :
    w ++ x :: a <+: v ++ x :: b ↔ w = v ∧ a <+: b := by
  induction w generalizing v with
  | nil =>
    cases v with
    | nil => simp
    | cons d v =>
      have hd : x ≠ d := fun h => hv (h ▸ List.mem_cons_self)
      simp [List.cons_prefix_cons, hd]
  | cons c w ih =>
    obtain ⟨hc, hw⟩ := not_or.mp (mt List.mem_cons.mpr hw)
    cases v with
    | nil => simp [List.cons_prefix_cons, Ne.symm hc]
    | cons d v =>
      obtain ⟨-, hv⟩ := not_or.mp (mt List.mem_cons.mpr hv)
      simp [List.cons_prefix_cons, ih hw hv, and_assoc]

theorem ended_prefix_iff (hp : ∀ w ∈ p, x ∉ w) (hl : ∀ w ∈ l, x ∉ w) :
    ended x p <+: ended x l ↔ p <+: l := by
  induction p generalizing l with
  | nil => simp [ended]
  | cons w p ih =>
    obtain ⟨hw, hp⟩ := List.forall_mem_cons.mp hp
    cases l with
    | nil => simp [ended]
    | cons v l =>
      obtain ⟨hv, hl⟩ := List.forall_mem_cons.mp hl
      have hcons : ∀ u (us : List (List α)), ended x (u :: us) = u ++ x :: ended x us := by
        simp [ended]
      rw [hcons, hcons, append_cons_prefix_iff hw hv, ih hp hl, List.cons_prefix_cons]

/-- What begins with the separator does not begin inside a word. -/
theorem cons_infix_append (hv : x ∉ v) : x :: a <:+: v ++ b ↔ x :: a <:+: b := by
  induction v with
  | nil => rfl
  | cons d v ih =>
    obtain ⟨hd, hv⟩ := not_or.mp (mt List.mem_cons.mpr hv)
    rw [List.cons_append, List.infix_cons_iff, ih hv]
    simp [List.cons_prefix_cons, hd]

/-- **Words as text.** -/
theorem wrap_infix_iff (hp : ∀ w ∈ p, x ∉ w) (hl : ∀ w ∈ l, x ∉ w) :
    wrap x p <:+: wrap x l ↔ p <:+: l := by
  have hprefix : ∀ {l : List (List α)}, (∀ w ∈ l, x ∉ w) →
      (wrap x p <+: wrap x l ↔ p <+: l) := fun hl => by
    rw [wrap, wrap, List.prefix_cons_inj, ended_prefix_iff hp hl]
  induction l with
  | nil =>
    rw [wrap, wrap, List.infix_cons_iff, ← wrap, ← wrap, hprefix hl]
    simp [ended, wrap]
  | cons v l ih =>
    obtain ⟨hv, hl'⟩ := List.forall_mem_cons.mp hl
    have hrest : wrap x p <:+: ended x (v :: l) ↔ wrap x p <:+: wrap x l := by
      have hcons : ended x (v :: l) = v ++ wrap x l := by simp [ended, wrap]
      rw [hcons]
      exact cons_infix_append hv
    rw [wrap.eq_1 x (v :: l), List.infix_cons_iff, ← wrap, hprefix hl, hrest, List.infix_cons_iff]
    exact or_congr_right (ih hl')

theorem singleton_infix_iff {c : β} {l : List β} : [c] <:+: l ↔ c ∈ l := by
  constructor
  · exact fun h => h.subset List.mem_cons_self
  · intro h
    obtain ⟨front, back, rfl⟩ := List.append_of_mem h
    exact ⟨front, back, by simp⟩

theorem infix_map_iff_of_injective {f : α → β} (hf : Function.Injective f) {p l : List α} :
    p.map f <:+: l.map f ↔ p <:+: l := by
  constructor
  · intro h
    obtain ⟨q, hq, heq⟩ := List.infix_map_iff.mp h
    rwa [List.map_injective_iff.mpr hf heq]
  · exact fun h => h.map f

theorem flatMap_intercalate (f : α → List β) (sep : List α) (ws : List (List α)) :
    (sep.intercalate ws).flatMap f = (sep.flatMap f).intercalate (ws.map (·.flatMap f)) := by
  induction ws with
  | nil => rfl
  | cons w ws ih =>
    cases ws with
    | nil => simp
    | cons v ws =>
      rw [List.intercalate_cons_cons, List.flatMap_append, List.flatMap_append, ih]
      simp [List.intercalate_cons_cons]

/-! ### Splitting -/

section Split

variable [BEq α] [LawfulBEq α]

omit [LawfulBEq α] in
theorem splitOn_ne_nil (x : α) (a : List α) : a.splitOn x ≠ [] := by
  rw [List.splitOn]
  exact List.splitOnP_ne_nil _ a

/-- The words of a text have no separator in them. -/
theorem notMem_of_mem_splitOn (h : w ∈ a.splitOn x) : x ∉ w := by
  rw [List.splitOn] at h
  induction a generalizing w with
  | nil =>
    obtain rfl : w = [] := by simpa using h
    exact List.not_mem_nil
  | cons c a ih =>
    rw [List.splitOnP_cons_eq_if_modifyHead] at h
    split at h
    · obtain rfl | h := List.mem_cons.mp h
      · exact List.not_mem_nil
      · exact ih h
    · next hc =>
      cases hs : a.splitOnP (· == x) with
      | nil => exact absurd hs (List.splitOnP_ne_nil _ a)
      | cons u us =>
        rw [hs] at h ih
        obtain rfl | h := List.mem_cons.mp h
        · refine fun hin => (List.mem_cons.mp hin).elim (fun hxc => hc (by simp [hxc])) ?_
          exact ih List.mem_cons_self
        · exact ih (List.mem_cons_of_mem _ h)

/-- Splitting undoes joining for some words without separator, and for nothing else. -/
theorem splitOn_intercalate_iff :
    ([x].intercalate ws).splitOn x = ws ↔ ws ≠ [] ∧ ∀ w ∈ ws, x ∉ w := by
  constructor
  · intro h
    refine ⟨h ▸ splitOn_ne_nil x _, fun w hw => ?_⟩
    rw [← h] at hw
    exact notMem_of_mem_splitOn hw
  · exact fun ⟨hne, hws⟩ => List.splitOn_intercalate x hws hne

end Split

end Separated
