import Mathlib.Tactic

/-! The first occurrence of a pattern in a list. -/

namespace Xframe.Lib

variable {α : Type} [DecidableEq α] (pat : List α) {s t : List α} {i : ℕ}

def firstAt : List α → ℕ
  | [] => 0
  | b :: s => if pat <+: b :: s then 0 else firstAt s + 1

variable {pat}

lemma firstAt_le (h : pat <+: s.drop i) : firstAt pat s ≤ i := by
  induction s generalizing i with
  | nil => exact Nat.zero_le i
  | cons b s ih =>
    rw [firstAt]
    split
    case isTrue => exact Nat.zero_le i
    case isFalse hb =>
      cases i with
      | zero => exact absurd h hb
      | succ i => exact Nat.succ_le_succ (ih h)

lemma firstAt_le_length (s : List α) : firstAt pat s ≤ s.length := by
  induction s with
  | nil => exact le_rfl
  | cons b s ih =>
    rw [firstAt, List.length_cons]
    split <;> omega

lemma firstAt_occurs (h : pat <+: s.drop i) : pat <+: s.drop (firstAt pat s) := by
  induction s generalizing i with
  | nil => simpa using h
  | cons b s ih =>
    rw [firstAt]
    split
    case isTrue hb => exact hb
    case isFalse hb =>
      cases i with
      | zero => exact absurd h hb
      | succ i => exact ih h

lemma firstAt_append (h : ∀ i < s.length, ¬pat <+: (s ++ (pat ++ t)).drop i) :
    firstAt pat (s ++ (pat ++ t)) = s.length := by
  have hend : pat <+: (s ++ (pat ++ t)).drop s.length := by
    rw [List.drop_left]
    exact List.prefix_append _ _
  apply le_antisymm (firstAt_le hend)
  by_contra hlt
  exact h _ (by omega) (firstAt_occurs hend)

lemma exists_firstAt (h : pat <+: s.drop i) :
    ∃ a t, s = a ++ (pat ++ t) ∧ a.length = firstAt pat s := by
  obtain ⟨t, ht⟩ := firstAt_occurs h
  refine ⟨s.take (firstAt pat s), t, ?_, ?_⟩
  · rw [ht, List.take_append_drop]
  · exact List.length_take_of_le (firstAt_le_length s)

end Xframe.Lib
