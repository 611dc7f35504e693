import Mathlib.Tactic

/-! Postconditions of computations that may have no result: `Returns x P` says that `x` has one and
that it satisfies `P`. -/

namespace Xframe.Lib

variable {α β : Type}

def Returns (x : Option α) (P : α → Prop) : Prop := ∃ a, x = some a ∧ P a

@[simp] lemma returns_some (a : α) (P : α → Prop) : Returns (some a) P ↔ P a := by
  simp [Returns]

lemma Returns.bind {x : Option α} {f : α → Option β} {Q : α → Prop} {P : β → Prop}
    (hx : Returns x Q) (hf : ∀ a, Q a → Returns (f a) P) : Returns (x >>= f) P := by
  obtain ⟨a, rfl, ha⟩ := hx
  exact hf a ha

lemma Returns.mono {x : Option α} {Q P : α → Prop} (hx : Returns x Q) (h : ∀ a, Q a → P a) :
    Returns x P := by
  obtain ⟨a, rfl, ha⟩ := hx
  exact ⟨a, rfl, h a ha⟩

lemma Returns.mono' {x : Option α} {Q P : α → Prop} (hx : Returns x Q) (h : ∀ a, x = some a → Q a → P a) :
    Returns x P := by
  obtain ⟨a, rfl, ha⟩ := hx
  exact ⟨a, rfl, h a rfl ha⟩

lemma Returns.map {x : Option α} {f : α → β} {Q : α → Prop} {P : β → Prop} (hx : Returns x Q)
    (h : ∀ a, Q a → P (f a)) : Returns (x.map f) P := by
  obtain ⟨a, rfl, ha⟩ := hx
  exact ⟨f a, rfl, h a ha⟩

lemma Returns.of_bind {x : Option α} {a : α} {f : α → Option β} {P : β → Prop} (hx : x = some a)
    (hf : Returns (f a) P) : Returns (x >>= f) P := by
  rw [hx]
  exact hf

lemma bind_of_map {γ δ : Type} {x : Option α} {y : Option γ} {f : α → γ} {k : α → Option β} {k' : γ → Option δ} {g : β → δ}
    (hx : y = x.map f) (hk : ∀ a, x = some a → k' (f a) = (k a).map g) : y >>= k' = (x >>= k).map g := by
  subst hx
  cases x with
  | none => rfl
  | some a => exact hk a rfl

end Xframe.Lib
