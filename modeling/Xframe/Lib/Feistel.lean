import Mathlib.Tactic

/-! Feistel networks: a block of two halves goes through rounds that swap the halves and mix one of them
with a function of the other. -/

namespace Xframe.Lib.Feistel

variable {α β : Type} {mix : β → α → α} {Half : α → Prop} {fs : List (α → β)} {f : α → β} {b : α × α}

def turn (mix : β → α → α) (f : α → β) (b : α × α) : α × α := (b.2, mix (f b.2) b.1)

def network (mix : β → α → α) (fs : List (α → β)) (b : α × α) : α × α := fs.foldl (fun b f => turn mix f b) b

structure Masks (mix : β → α → α) (Half : α → Prop) (f : α → β) : Prop where
  keeps : ∀ l r, Half l → Half r → Half (mix (f r) l)
  cancels : ∀ l r, Half l → Half r → mix (f r) (mix (f r) l) = l

lemma turn_halves (hf : Masks mix Half f) (hb : Half b.1 ∧ Half b.2) : Half (turn mix f b).1 ∧ Half (turn mix f b).2 :=
  ⟨hb.2, hf.keeps b.1 b.2 hb.1 hb.2⟩

lemma network_halves (hf : ∀ f ∈ fs, Masks mix Half f) (hb : Half b.1 ∧ Half b.2) :
    Half (network mix fs b).1 ∧ Half (network mix fs b).2 := by
  induction fs generalizing b with
  | nil => exact hb
  | cons f fs ih =>
    exact ih (fun g hg => hf g (List.mem_cons_of_mem f hg)) (turn_halves (hf f (List.mem_cons_self ..)) hb)

lemma turn_swap_turn (hf : Masks mix Half f) (hb : Half b.1 ∧ Half b.2) :
    turn mix f (turn mix f b).swap = b.swap := by
  change (b.2, mix (f b.2) (mix (f b.2) b.1)) = (b.2, b.1)
  rw [hf.cancels b.1 b.2 hb.1 hb.2]

theorem network_reverse (hf : ∀ f ∈ fs, Masks mix Half f) (hb : Half b.1 ∧ Half b.2) :
    network mix fs.reverse (network mix fs b).swap = b.swap := by
  induction fs generalizing b with
  | nil => rfl
  | cons f fs ih =>
    have hturn := turn_halves (hf f (List.mem_cons_self ..)) hb
    have hback := ih (fun g hg => hf g (List.mem_cons_of_mem f hg)) hturn
    calc network mix (f :: fs).reverse (network mix (f :: fs) b).swap
        = turn mix f (network mix fs.reverse (network mix fs (turn mix f b)).swap) := by
          rw [network, List.reverse_cons, List.foldl_append]
          rfl
      _ = turn mix f (turn mix f b).swap := by rw [hback]
      _ = b.swap := turn_swap_turn (hf f (List.mem_cons_self ..)) hb

structure Alike (mix : β → α → α) (Half : α → Prop) (c : α → α) (f g : α → β) : Prop where
  answer : ∀ r, Half r → g (c r) = f r
  passes : ∀ l r, Half l → Half r → mix (f r) (c l) = c (mix (f r) l)

theorem network_alike {c : α → α} {gs : List (α → β)} (hfg : List.Forall₂ (Alike mix Half c) fs gs)
    (hf : ∀ f ∈ fs, Masks mix Half f) (hb : Half b.1 ∧ Half b.2) :
    network mix gs (b.map c c) = (network mix fs b).map c c := by
  induction hfg generalizing b with
  | nil => rfl
  | @cons f g fs gs hone _ ih =>
    have hturn : turn mix g (b.map c c) = (turn mix f b).map c c := by
      change (c b.2, mix (g (c b.2)) (c b.1)) = (c b.2, c (mix (f b.2) b.1))
      rw [hone.answer b.2 hb.2, hone.passes b.1 b.2 hb.1 hb.2]
    change network mix gs (turn mix g (b.map c c)) = _
    rw [hturn]
    exact ih (fun g hg => hf g (List.mem_cons_of_mem f hg)) (turn_halves (hf f (List.mem_cons_self ..)) hb)

end Xframe.Lib.Feistel
