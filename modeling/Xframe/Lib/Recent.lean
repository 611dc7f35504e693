import Mathlib.Tactic

/-! Lists that are kept in the order of the last use of their members, and what the order makes of a scan from
the oldest end. -/

namespace Xframe.Lib

open scoped List

variable {α : Type}

section Recency

variable [DecidableEq α] {a b : α} {history l l' : List α}

def recency (history : List α) (a : α) : ℕ := history.reverse.idxOf a

@[simp] lemma recency_self (history : List α) (a : α) : recency (history ++ [a]) a = 0 := by simp [recency]

lemma recency_of_ne (history : List α) (h : b ≠ a) : recency (history ++ [a]) b = recency history b + 1 := by
  simp [recency, List.idxOf_cons_ne _ h.symm]

def OldestFirst (history l : List α) : Prop := l.Pairwise fun a b => recency history b < recency history a

lemma OldestFirst.use (h : OldestFirst history l) (a : α) (hl : l' <+ l.filter (· ≠ a) ++ [a]) :
    OldestFirst (history ++ [a]) l' := by
  refine List.Pairwise.sublist hl (List.pairwise_append.mpr ⟨?_, List.pairwise_singleton _ _, ?_⟩)
  · refine (List.Pairwise.sublist List.filter_sublist h).imp_of_mem ?_
    intro x y hx hy hlt
    have hxa : x ≠ a := by simpa using (List.mem_filter.mp hx).2
    have hya : y ≠ a := by simpa using (List.mem_filter.mp hy).2
    rw [recency_of_ne _ hxa, recency_of_ne _ hya]
    omega
  · intro x hx y hy
    obtain rfl := List.mem_singleton.mp hy
    have hxa : x ≠ y := by simpa using (List.mem_filter.mp hx).2
    rw [recency_self, recency_of_ne _ hxa]
    omega

end Recency

lemma dropWhile_eq_filter {p : α → Bool} {l : List α} (h : l.Pairwise fun a b => p b = true → p a = true) :
    l.dropWhile p = l.filter fun a => !p a := by
  induction l with
  | nil => rfl
  | cons a l ih =>
    obtain ⟨hfirst, hrest⟩ := List.pairwise_cons.mp h
    by_cases ha : p a = true
    · rw [List.dropWhile_cons_of_pos ha, List.filter_cons_of_neg (by simp [ha]), ih hrest]
    · have hall : ∀ b ∈ a :: l, (!p b) = true := by
        intro b hb
        rcases List.mem_cons.mp hb with rfl | hb
        · simpa using ha
        · simpa using fun hp => ha (hfirst b hb hp)
      rw [List.dropWhile_cons_of_neg ha, List.filter_eq_self.mpr hall]

end Xframe.Lib
