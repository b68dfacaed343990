import Mathlib.Data.List.Infix
import Mathlib.Data.Set.Finite.Basic
import Mathlib.Order.Preorder.Finite

/-!
# Removing a word from a text

A text is searched from the left, and each occurrence of a word that is found is replaced; the
search goes on behind it. If the word is replaced by nothing, what comes out may contain the word
again. It is shorter than the text if the word was found, and the text itself if it was not.

So a text can come out of another one, and a set of texts be shuffled by the removal? It cannot:
where each text of a finite set comes out of one of the set, the longest one with the word in it
would have to come out of one that is longer still.

## Main definitions

* `Removal.replace`

## Main results

* `replace_append`: a text that begins with the word
* `remove_eq_self_iff`: what is left alone
* `eq_self_of_shrinks`: a map that makes some elements of a finite set smaller, and reaches each of
  them, moves none
-/

namespace Removal

variable {α : Type*} [DecidableEq α] {word new text : List α}

/-- The search, with so many letters to be skipped first. -/
def replaceFrom (word new : List α) : ℕ → List α → List α
  | _, [] => []
  | k + 1, _ :: text => replaceFrom word new k text
  | 0, c :: text =>
    if word <+: c :: text then new ++ replaceFrom word new (word.length - 1) text
    else c :: replaceFrom word new 0 text

/-- Replace each occurrence of a word, which is not empty. -/
def replace (word new text : List α) : List α := replaceFrom word new 0 text

/-! ### The search -/

theorem replaceFrom_append (skipped text : List α) :
    replaceFrom word new skipped.length (skipped ++ text) = replace word new text := by
  induction skipped with
  | nil => rfl
  | cons c skipped ih => exact ih

/-- An occurrence at the beginning. -/
theorem replace_append (hword : word ≠ []) (new text : List α) :
    replace word new (word ++ text) = new ++ replace word new text := by
  cases word with
  | nil => exact absurd rfl hword
  | cons c word =>
    have hprefix : c :: word <+: c :: (word ++ text) := List.prefix_append (c :: word) text
    rw [replace, List.cons_append, replaceFrom, if_pos hprefix]
    exact congrArg _ (replaceFrom_append word text)

/-- No occurrence there. -/
theorem replace_cons {c : α} (h : ¬word <+: c :: text) :
    replace word new (c :: text) = c :: replace word new text := by
  rw [replace, replaceFrom, if_neg h]
  rfl

theorem replace_eq_self (h : ¬word <:+: text) : replace word new text = text := by
  induction text with
  | nil => rfl
  | cons c text ih =>
    rw [List.infix_cons_iff, not_or] at h
    rw [replace_cons h.1, ih h.2]

/-! ### Removal -/

theorem length_removeFrom_le (k : ℕ) (text : List α) :
    (replaceFrom word [] k text).length ≤ text.length := by
  induction text generalizing k with
  | nil => exact Nat.le_of_eq (by cases k <;> rfl)
  | cons c text ih =>
    cases k with
    | zero =>
      rw [replaceFrom]
      split
      · exact (ih _).trans (Nat.le_succ _)
      · exact Nat.succ_le_succ (ih 0)
    | succ k => exact (ih k).trans (Nat.le_succ _)

/-- A text becomes shorter if the word is found in it. -/
theorem length_remove_lt (hword : word ≠ []) (h : word <:+: text) :
    (replace word [] text).length < text.length := by
  induction text with
  | nil => exact absurd (List.eq_nil_of_infix_nil h) hword
  | cons c text ih =>
    by_cases hprefix : word <+: c :: text
    · obtain ⟨rest, hrest⟩ := hprefix
      have hlength := List.length_pos_iff.mpr hword
      have hle : (replace word [] rest).length ≤ rest.length := length_removeFrom_le 0 rest
      rw [← hrest, replace_append hword, List.nil_append, List.length_append]
      omega
    · have hinfix := (List.infix_cons_iff.mp h).resolve_left hprefix
      rw [replace_cons hprefix]
      exact Nat.succ_lt_succ (ih hinfix)

/-- Shorter, and the word is there again. -/
example : replace ['a', 'b'] [] ['a', 'a', 'b', 'b'] = ['a', 'b'] := by decide

/-- **What is left alone.** -/
theorem remove_eq_self_iff (hword : word ≠ []) : replace word [] text = text ↔ ¬word <:+: text := by
  refine ⟨fun heq hinfix => ?_, replace_eq_self⟩
  have hlt := length_remove_lt hword hinfix
  rw [heq] at hlt
  exact absurd hlt (Nat.lt_irrefl _)

/-! ### A set of texts -/

/-- **No shuffling.** If `f` makes each element of a finite set smaller that it moves, and each
element is the image of one in the set, then `f` moves none of them. -/
theorem eq_self_of_shrinks {β : Type*} {s : Set β} (hs : s.Finite) {f : β → β} (μ : β → ℕ)
    (hshrinks : ∀ c ∈ s, f c ≠ c → μ (f c) < μ c) (himage : ∀ c ∈ s, ∃ d ∈ s, f d = c)
    {c : β} (hc : c ∈ s) : f c = c := by
  by_contra hmoved
  -- among the elements that are moved, the greatest is the image of a greater one
  obtain ⟨b, ⟨hb, hbmoved⟩, hmax⟩ := (hs.sep fun c => f c ≠ c).exists_maximalFor μ _ ⟨c, hc, hmoved⟩
  obtain ⟨d, hd, rfl⟩ := himage b hb
  have hdmoved : f d ≠ d := fun heq => hbmoved (congrArg f heq)
  have hlt := hshrinks d hd hdmoved
  exact absurd (hmax ⟨hd, hdmoved⟩ hlt.le) (not_le.mpr hlt)

end Removal
