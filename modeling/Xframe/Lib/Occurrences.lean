import Mathlib.Tactic

/-! Leftmost occurrences of a pattern in a list that do not overlap, and the list with something else in their place. -/

namespace Xframe.Lib.Occurrences

variable {α : Type} {pattern rep s a b a' b' out out' : List α} {k k' : ℕ}

structure First (pattern s a b : List α) : Prop where
  eq : s = a ++ (pattern ++ b)
  least : ∀ a' b', s = a' ++ (pattern ++ b') → a.length ≤ a'.length

inductive Replaces (pattern rep : List α) : List α → List α → Prop
  | kept {s : List α} : ¬pattern <:+: s → Replaces pattern rep s s
  | found {s a b out : List α} : First pattern s a b → Replaces pattern rep b out →
      Replaces pattern rep s (a ++ (rep ++ out))

inductive Occurs (pattern : List α) : ℕ → List α → Prop
  | none {s : List α} : ¬pattern <:+: s → Occurs pattern 0 s
  | found {s a b : List α} {k : ℕ} : First pattern s a b → Occurs pattern k b → Occurs pattern (k + 1) s

lemma First.occurs (h : First pattern s a b) : pattern <:+: s := ⟨a, b, by rw [h.eq, List.append_assoc]⟩

lemma First.length (h : First pattern s a b) : s.length = a.length + pattern.length + b.length := by
  rw [h.eq, List.length_append, List.length_append, Nat.add_assoc]

lemma First.unique (h : First pattern s a b) (h' : First pattern s a' b') : a = a' ∧ b = b' := by
  have hlen : a.length = a'.length := le_antisymm (h.least a' b' h'.eq) (h'.least a b h.eq)
  obtain ⟨hfront, hback⟩ := List.append_inj (h.eq.symm.trans h'.eq) hlen
  exact ⟨hfront, List.append_cancel_left hback⟩

lemma first_exists (h : pattern <:+: s) : ∃ a b, First pattern s a b := by
  classical
  have hex : ∃ n a b, s = a ++ (pattern ++ b) ∧ a.length = n := by
    obtain ⟨a, b, hab⟩ := h
    exact ⟨a.length, a, b, by rw [← hab, List.append_assoc], rfl⟩
  obtain ⟨a, b, hs, hlen⟩ := Nat.find_spec hex
  refine ⟨a, b, hs, fun a' b' hs' => ?_⟩
  rw [hlen]
  exact Nat.find_min' hex ⟨a', b', hs', rfl⟩

lemma Replaces.pattern_ne_nil (h : Replaces pattern rep s out) : pattern ≠ [] := by
  induction h with
  | kept hno =>
    rintro rfl
    exact hno (List.nil_infix)
  | found _ _ ih => exact ih

lemma Replaces.unique (h : Replaces pattern rep s out) (h' : Replaces pattern rep s out') : out = out' := by
  induction h generalizing out' with
  | kept hno =>
    cases h' with
    | kept _ => rfl
    | found hfirst _ => exact absurd hfirst.occurs hno
  | found hfirst _ ih =>
    cases h' with
    | kept hno => exact absurd hfirst.occurs hno
    | found hfirst' htail =>
      obtain ⟨rfl, rfl⟩ := hfirst.unique hfirst'
      rw [ih htail]

lemma replaces_exists (hp : pattern ≠ []) (rep s : List α) : ∃ out, Replaces pattern rep s out := by
  have hpos : 0 < pattern.length := List.length_pos_iff.mpr hp
  induction hn : s.length using Nat.strong_induction_on generalizing s with
  | _ n ih =>
    by_cases hin : pattern <:+: s
    · obtain ⟨a, b, hfirst⟩ := first_exists hin
      have hlen := hfirst.length
      obtain ⟨out, hout⟩ := ih b.length (by omega) b rfl
      exact ⟨_, .found hfirst hout⟩
    · exact ⟨s, .kept hin⟩

lemma Occurs.unique (h : Occurs pattern k s) (h' : Occurs pattern k' s) : k = k' := by
  induction h generalizing k' with
  | none hno =>
    cases h' with
    | none _ => rfl
    | found hfirst _ => exact absurd hfirst.occurs hno
  | found hfirst _ ih =>
    cases h' with
    | none hno => exact absurd hfirst.occurs hno
    | found hfirst' htail =>
      obtain ⟨rfl, rfl⟩ := hfirst.unique hfirst'
      rw [ih htail]

lemma Replaces.occurs (h : Replaces pattern rep s out) :
    ∃ k, Occurs pattern k s ∧ out.length + k * pattern.length = s.length + k * rep.length := by
  induction h with
  | kept hno => exact ⟨0, .none hno, by simp⟩
  | found hfirst _ ih =>
    obtain ⟨k, hk, hlen⟩ := ih
    refine ⟨k + 1, .found hfirst hk, ?_⟩
    rw [hfirst.length, List.length_append, List.length_append, Nat.add_mul, Nat.add_mul]
    omega

end Xframe.Lib.Occurrences
