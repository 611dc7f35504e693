import Mathlib.Tactic

/-! Runs of a labelled step relation, and the rule that carries an invariant along a run. -/

namespace Xframe.Lib

variable {σ ε : Type}

inductive Run (Step : σ → ε → σ → Prop) (s : σ) : List ε → σ → Prop
  | nil : Run Step s [] s
  | snoc {es : List ε} {t u : σ} {e : ε} : Run Step s es t → Step t e u → Run Step s (es ++ [e]) u

namespace Run

variable {Step : σ → ε → σ → Prop} {s t u : σ} {e : ε} {es fs : List ε}

lemma nil_inv (h : Run Step s [] t) : s = t := by
  generalize hn : ([] : List ε) = es at h
  cases h with
  | nil => rfl
  | snoc => simp at hn

lemma cons (h : Step s e t) (hr : Run Step t es u) : Run Step s (e :: es) u := by
  induction hr with
  | nil => exact .snoc .nil h
  | snoc _ hs ih => exact .snoc ih hs

lemma exists_cons {P : σ → Prop} (h : Step s e t) (hr : ∃ u, Run Step t es u ∧ P u) :
    ∃ u, Run Step s (e :: es) u ∧ P u := by
  obtain ⟨u, hu, hp⟩ := hr
  exact ⟨u, cons h hu, hp⟩

lemma split (h : Run Step s (es ++ fs) u) : ∃ t, Run Step s es t ∧ Run Step t fs u := by
  induction fs using List.reverseRecOn generalizing u with
  | nil => exact ⟨u, by simpa using h, .nil⟩
  | append_singleton fs f ih =>
    rw [← List.append_assoc] at h
    generalize hg : es ++ fs ++ [f] = gs at h
    cases h with
    | nil => simp at hg
    | snoc hr hs =>
      obtain ⟨rfl, hf⟩ := List.append_inj' hg rfl
      cases hf
      obtain ⟨t, h1, h2⟩ := ih hr
      exact ⟨t, h1, .snoc h2 hs⟩

lemma cons_inv (h : Run Step s (e :: es) u) : ∃ t, Step s e t ∧ Run Step t es u := by
  rw [← List.singleton_append] at h
  obtain ⟨t, h1, h2⟩ := h.split
  generalize hg : [e] = gs at h1
  cases h1 with
  | nil => simp at hg
  | @snoc fs _ _ f hr hs =>
    obtain ⟨rfl, rfl⟩ : fs = [] ∧ f = e := by
      cases fs with
      | nil => exact ⟨rfl, (List.cons.inj hg).1.symm⟩
      | cons => simp at hg
    exact ⟨t, hr.nil_inv ▸ hs, h2⟩

theorem invariant {I : List ε → σ → Prop} (h0 : I [] s)
    (hstep : ∀ es t e u, I es t → Step t e u → I (es ++ [e]) u) (h : Run Step s es t) : I es t := by
  induction h with
  | nil => exact h0
  | snoc _ hs ih => exact hstep _ _ _ _ ih hs

end Run

end Xframe.Lib
