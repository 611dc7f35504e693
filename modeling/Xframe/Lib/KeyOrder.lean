import Mathlib.Data.List.Lex
import Mathlib.Order.Lattice
import Mathlib.Order.RelClasses

/-! What a sorted map and its callers expect of the comparisons of the keys. -/

namespace Xframe.Lib

structure Comparisons (α : Type) where
  lt : α → α → Prop
  gt : α → α → Prop
  le : α → α → Prop
  ge : α → α → Prop
  eq : α → α → Prop
  ne : α → α → Prop

namespace Comparisons

variable {α β γ : Type}

def SameEntry (c : Comparisons α) (a b : α) : Prop := ¬c.lt a b ∧ ¬c.lt b a

structure Consistent (c : Comparisons α) (a b : α) : Prop where
  one : c.lt a b ∧ ¬c.eq a b ∧ ¬c.lt b a ∨ ¬c.lt a b ∧ c.eq a b ∧ ¬c.lt b a ∨ ¬c.lt a b ∧ ¬c.eq a b ∧ c.lt b a
  gt_iff : c.gt a b ↔ c.lt b a
  ge_iff : c.ge a b ↔ c.lt b a ∨ c.eq a b
  le_iff : c.le a b ↔ c.lt a b ∨ c.eq a b
  ne_iff : c.ne a b ↔ ¬c.eq a b
  same_iff : c.SameEntry a b ↔ c.eq a b

structure Ranked [LinearOrder β] (c : Comparisons α) (rank : α → β) (whole : α → γ) : Prop where
  lt_iff : ∀ a b, c.lt a b ↔ rank a < rank b
  gt_iff : ∀ a b, c.gt a b ↔ rank b < rank a
  le_iff : ∀ a b, c.le a b ↔ rank a ≤ rank b
  ge_iff : ∀ a b, c.ge a b ↔ rank b ≤ rank a
  eq_iff : ∀ a b, c.eq a b ↔ whole a = whole b
  ne_iff : ∀ a b, c.ne a b ↔ whole a ≠ whole b
  rank_eq : ∀ a b, whole a = whole b → rank a = rank b

variable [LinearOrder β] {c : Comparisons α} {rank : α → β} {whole : α → γ}

lemma Ranked.strictWeakOrder (h : c.Ranked rank whole) : IsStrictWeakOrder α c.lt where
  irrefl a ha := lt_irrefl _ ((h.lt_iff a a).mp ha)
  trans a b d hab hbd := (h.lt_iff a d).mpr (((h.lt_iff a b).mp hab).trans ((h.lt_iff b d).mp hbd))
  incomp_trans a b d hab hbd := by
    rw [h.lt_iff, h.lt_iff, not_lt, not_lt] at hab hbd ⊢
    exact ⟨hbd.1.trans hab.1, hab.2.trans hbd.2⟩

lemma Ranked.sameEntry_iff (h : c.Ranked rank whole) (a b : α) : c.SameEntry a b ↔ rank a = rank b := by
  rw [SameEntry, h.lt_iff, h.lt_iff, not_lt, not_lt]
  exact ⟨fun hab => le_antisymm hab.2 hab.1, fun hab => ⟨hab.ge, hab.le⟩⟩

lemma Ranked.consistent_iff (h : c.Ranked rank whole) (a b : α) :
    c.Consistent a b ↔ (rank a = rank b → whole a = whole b) := by
  constructor
  · intro hc hrank
    exact (h.eq_iff a b).mp (hc.same_iff.mp ((h.sameEntry_iff a b).mpr hrank))
  · intro hrank
    have heq : c.eq a b ↔ rank a = rank b := by
      rw [h.eq_iff]
      exact ⟨h.rank_eq a b, hrank⟩
    refine ⟨?_, ?_, ?_, ?_, ?_, ?_⟩
    · rw [h.lt_iff, h.lt_iff, heq]
      rcases lt_trichotomy (rank a) (rank b) with hlt | hsame | hgt
      · exact Or.inl ⟨hlt, hlt.ne, hlt.asymm⟩
      · exact Or.inr (Or.inl ⟨hsame.not_lt, hsame, hsame.not_gt⟩)
      · exact Or.inr (Or.inr ⟨hgt.asymm, hgt.ne', hgt⟩)
    · rw [h.gt_iff, h.lt_iff]
    · rw [h.ge_iff, h.lt_iff, heq, le_iff_lt_or_eq, eq_comm]
    · rw [h.le_iff, h.lt_iff, heq, le_iff_lt_or_eq]
    · rw [h.ne_iff, h.eq_iff]
    · rw [h.sameEntry_iff, heq]

end Comparisons

end Xframe.Lib
