import Mathlib.Tactic

/-! A stream made of frames, read a part at a time: how many frames a prefix of the stream has
completed and what it holds of the next one. -/

namespace Xframe.Lib

variable {α : Type}

def Unfinished (r : List α) : List (List α) → Prop
  | [] => r = []
  | f :: _ => r.length < f.length ∧ r <+: f

def arrived : List (List α) → ℕ → ℕ × List α
  | [], _ => (0, [])
  | f :: fs, n =>
    if f.length ≤ n then ((arrived fs (n - f.length)).1 + 1, (arrived fs (n - f.length)).2)
    else (0, f.take n)

lemma arrived_eq {ds fs : List (List α)} {r : List α} (h : Unfinished r fs) :
    arrived (ds ++ fs) (ds.flatten.length + r.length) = (ds.length, r) := by
  induction ds with
  | nil =>
    cases fs with
    | nil =>
      obtain rfl : r = [] := h
      rfl
    | cons f fs =>
      obtain ⟨hlt, hp⟩ := h
      have ht : f.take r.length = r := (List.prefix_iff_eq_take.mp hp).symm
      rw [List.nil_append, List.flatten_nil, List.length_nil, zero_add, arrived, if_neg (by omega), ht]
      rfl
  | cons d ds ih =>
    rw [List.flatten_cons, List.length_append, Nat.add_assoc, List.cons_append, arrived,
      if_pos (Nat.le_add_right _ _), Nat.add_sub_cancel_left, ih]
    rfl

lemma exists_arrived {fs : List (List α)} (hne : ∀ f ∈ fs, f ≠ []) {s t : List α}
    (h : s ++ t = fs.flatten) :
    ∃ ds us r, fs = ds ++ us ∧ s = ds.flatten ++ r ∧ Unfinished r us := by
  induction fs generalizing s with
  | nil =>
    obtain ⟨rfl, rfl⟩ : s = [] ∧ t = [] := by simpa using h
    exact ⟨[], [], [], rfl, rfl, rfl⟩
  | cons f fs ih =>
    rw [List.flatten_cons] at h
    by_cases hlen : f.length ≤ s.length
    · obtain ⟨s', rfl⟩ : f <+: s := by
        refine List.prefix_of_prefix_length_le ⟨fs.flatten, rfl⟩ ⟨t, h⟩ hlen
      rw [List.append_assoc, List.append_cancel_left_eq] at h
      obtain ⟨ds, us, r, hfs, hs, hr⟩ := ih (fun g hg => hne g (List.mem_cons_of_mem _ hg)) h
      exact ⟨f :: ds, us, r, by rw [hfs]; rfl, by rw [hs]; simp, hr⟩
    · have hp : s <+: f := List.prefix_of_prefix_length_le ⟨t, h⟩ ⟨fs.flatten, rfl⟩ (by omega)
      exact ⟨[], f :: fs, s, rfl, rfl, by omega, hp⟩

lemma Unfinished.nil {fs : List (List α)} (hne : ∀ f ∈ fs, f ≠ []) : Unfinished [] fs := by
  cases fs with
  | nil => rfl
  | cons f fs => exact ⟨List.length_pos_iff.mpr (hne f List.mem_cons_self), List.nil_prefix⟩

end Xframe.Lib
