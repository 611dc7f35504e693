import Xframe.Lib.Returns

/-! Data refinement: a component whose calls may have no result, next to a total abstract one. If
every call has a result, answers alike and keeps a relation between the two, so does every sequence
of calls. -/

namespace Xframe.Lib

variable {σ τ ω ρ : Type}

def runCalls (exec : σ → ω → Option (ρ × σ)) : σ → List ω → Option (List ρ × σ)
  | s, [] => some ([], s)
  | s, o :: os => do
    let (r, s) ← exec s o
    let (rs, s) ← runCalls exec s os
    some (r :: rs, s)

def runSteps (step : τ → ω → ρ × τ) : τ → List ω → List ρ × τ
  | t, [] => ([], t)
  | t, o :: os =>
    let (r, t) := step t o
    let (rs, t) := runSteps step t os
    (r :: rs, t)

def Along (step : τ → ω → ρ × τ) (P : τ → ω → Prop) : τ → List ω → Prop
  | _, [] => True
  | t, o :: os => P t o ∧ Along step P (step t o).2 os

instance Along.decidable (step : τ → ω → ρ × τ) (P : τ → ω → Prop) [∀ t o, Decidable (P t o)] :
    ∀ t os, Decidable (Along step P t os)
  | _, [] => isTrue trivial
  | t, o :: os => @instDecidableAnd _ _ _ (Along.decidable step P (step t o).2 os)

theorem runCalls_refines_iff {exec : σ → ω → Option (ρ × σ)} {step : τ → ω → ρ × τ}
    (R : σ → τ → Prop) (L G : τ → ω → Prop)
    (hstep : ∀ s t o, R s t → L t o →
      Returns (exec s o) fun (r, s') => (r = (step t o).1 ↔ G t o) ∧ R s' (step t o).2)
    {s : σ} {t : τ} (h : R s t) (os : List ω) (hl : Along step L t os) :
    Returns (runCalls exec s os) fun (rs, s') =>
      (rs = (runSteps step t os).1 ↔ Along step G t os) ∧ R s' (runSteps step t os).2 := by
  induction os generalizing s t with
  | nil => exact (returns_some _ _).mpr ⟨iff_of_true rfl trivial, h⟩
  | cons o os ih =>
    rw [runCalls]
    refine (hstep s t o h hl.1).bind fun (r, s') ⟨hr, hs⟩ => ?_
    refine (ih hs hl.2).bind fun (rs, s'') ⟨hrs, hs'⟩ => ?_
    rw [returns_some]
    refine ⟨?_, hs'⟩
    change r :: rs = (step t o).1 :: (runSteps step (step t o).2 os).1 ↔ _
    rw [List.cons.injEq, hr, hrs]
    rfl

lemma along_of_forall {step : τ → ω → ρ × τ} {P : τ → ω → Prop} (h : ∀ t o, P t o) (t : τ) (os : List ω) :
    Along step P t os := by
  induction os generalizing t with
  | nil => trivial
  | cons o os ih => exact ⟨h t o, ih _⟩

lemma along_of_invariant {step : τ → ω → ρ × τ} {L P : τ → ω → Prop} (I : τ → Prop)
    (hstep : ∀ t o, I t → L t o → P t o ∧ I (step t o).2) {t : τ} (h : I t) (os : List ω)
    (hl : Along step L t os) : Along step P t os := by
  induction os generalizing t with
  | nil => trivial
  | cons o os ih =>
    obtain ⟨hp, hi⟩ := hstep t o h hl.1
    exact ⟨hp, ih hi hl.2⟩

lemma Along.and {step : τ → ω → ρ × τ} {P Q : τ → ω → Prop} {t : τ} {os : List ω} (hp : Along step P t os)
    (hq : Along step Q t os) : Along step (fun t o => P t o ∧ Q t o) t os := by
  induction os generalizing t with
  | nil => trivial
  | cons o os ih => exact ⟨⟨hp.1, hq.1⟩, ih hp.2 hq.2⟩

lemma along_iff {step : τ → ω → ρ × τ} {L P Q : τ → ω → Prop} (I : τ → Prop)
    (hpq : ∀ t o, I t → L t o → (P t o ↔ Q t o)) (hkeep : ∀ t o, I t → L t o → P t o → I (step t o).2)
    {t : τ} (h : I t) (os : List ω) (hl : Along step L t os) : Along step P t os ↔ Along step Q t os := by
  induction os generalizing t with
  | nil => exact Iff.rfl
  | cons o os ih =>
    obtain ⟨ho, hl⟩ := hl
    constructor
    · rintro ⟨hp, hrest⟩
      exact ⟨(hpq t o h ho).mp hp, (ih (hkeep t o h ho hp) hl).mp hrest⟩
    · rintro ⟨hq, hrest⟩
      have hp := (hpq t o h ho).mpr hq
      exact ⟨hp, (ih (hkeep t o h ho hp) hl).mpr hrest⟩

def Always (exec : σ → ω → Option (ρ × σ)) (P : σ → Prop) : σ → List ω → Prop
  | s, [] => P s
  | s, o :: os => P s ∧ Returns (exec s o) fun (_, s') => Always exec P s' os

def Throughout (exec : σ → ω → Option (ρ × σ)) (C : σ → ω → Prop) : σ → List ω → Prop
  | _, [] => True
  | s, o :: os => C s o ∧ ∀ r s', exec s o = some (r, s') → Throughout exec C s' os

lemma Always.head {exec : σ → ω → Option (ρ × σ)} {P : σ → Prop} {s : σ} {os : List ω} (h : Always exec P s os) :
    P s := by
  cases os with
  | nil => exact h
  | cons o os => exact h.1

lemma always_throughout_iff {exec : σ → ω → Option (ρ × σ)} {P I : σ → Prop} {C D : σ → ω → Prop}
    (hI : ∀ s, I s → P s)
    (hgood : ∀ s o, I s → D s o → C s o ∧ Returns (exec s o) fun (_, s') => I s')
    (hbad : ∀ s o, I s → C s o → (Returns (exec s o) fun (_, s') => P s') → D s o)
    {s : σ} (h : I s) (os : List ω) :
    (Always exec P s os ∧ Throughout exec C s os) ↔ Throughout exec D s os := by
  induction os generalizing s with
  | nil => exact iff_of_true ⟨hI s h, trivial⟩ trivial
  | cons o os ih =>
    constructor
    · rintro ⟨⟨-, ⟨r, s'⟩, he, ha⟩, hc, ht⟩
      have hd : D s o := hbad s o h hc ⟨(r, s'), he, ha.head⟩
      refine ⟨hd, fun r' s'' he' => ?_⟩
      obtain ⟨-, q, hq, hi⟩ := hgood s o h hd
      obtain rfl := Option.some.inj (hq.symm.trans he')
      obtain ⟨rfl, rfl⟩ := Prod.mk.inj (Option.some.inj (he.symm.trans he'))
      exact (ih hi).mp ⟨ha, ht r s' he⟩
    · rintro ⟨hd, ht⟩
      obtain ⟨hc, ⟨r, s'⟩, he, hi⟩ := hgood s o h hd
      obtain ⟨ha, -⟩ := (ih hi).mpr (ht r s' he)
      refine ⟨⟨hI s h, (r, s'), he, ha⟩, hc, fun r' s'' he' => ?_⟩
      obtain ⟨rfl, rfl⟩ := Prod.mk.inj (Option.some.inj (he.symm.trans he'))
      exact ((ih hi).mpr (ht r s' he)).2

lemma always_iff {exec : σ → ω → Option (ρ × σ)} {P I : σ → Prop} {B : σ → ω → Prop} {L : ω → Prop}
    (hI : ∀ s, I s → P s)
    (hstep : ∀ s o, I s → L o → Returns (exec s o) fun (_, s') => (¬ B s o → I s') ∧ (B s o → ¬ P s'))
    {s : σ} (h : I s) {os : List ω} (hl : ∀ o ∈ os, L o) :
    Always exec P s os ↔ Throughout exec (fun s o => ¬ B s o) s os := by
  induction os generalizing s with
  | nil => exact iff_of_true (hI s h) trivial
  | cons o os ih =>
    obtain ⟨⟨r, s'⟩, he, hgood, hbad⟩ := hstep s o h (hl o (by simp))
    have hrest : ∀ x ∈ os, L x := fun x hx => hl x (by simp [hx])
    rw [Always, Throughout, he, returns_some]
    constructor
    · rintro ⟨-, ha⟩
      have hP : P s' := by
        cases os with
        | nil => exact ha
        | cons => exact ha.1
      have hc : ¬ B s o := fun hb => hbad hb hP
      refine ⟨hc, fun r' t ht => ?_⟩
      obtain ⟨rfl, rfl⟩ := Prod.mk.inj (Option.some.inj ht)
      exact (ih (hgood hc) hrest).mp ha
    · rintro ⟨hc, ht⟩
      exact ⟨hI s h, (ih (hgood hc) hrest).mpr (ht r s' rfl)⟩

lemma Throughout.mono {exec : σ → ω → Option (ρ × σ)} {P Q : σ → ω → Prop} (I : σ → Prop)
    (hpq : ∀ s o, I s → Q s o → P s o) (hkeep : ∀ s o r s', I s → Q s o → exec s o = some (r, s') → I s')
    {s : σ} (h : I s) {os : List ω} (ht : Throughout exec Q s os) : Throughout exec P s os := by
  induction os generalizing s with
  | nil => trivial
  | cons o os ih => exact ⟨hpq s o h ht.1, fun r s' he => ih (hkeep s o r s' h ht.1 he) (ht.2 r s' he)⟩

lemma throughout_iff {exec : σ → ω → Option (ρ × σ)} {P Q : σ → ω → Prop} (I : σ → Prop)
    (hpq : ∀ s o, I s → (P s o ↔ Q s o)) (hkeep : ∀ s o r s', I s → Q s o → exec s o = some (r, s') → I s')
    {s : σ} (h : I s) (os : List ω) : Throughout exec P s os ↔ Throughout exec Q s os := by
  constructor
  · apply Throughout.mono I (fun s o hi => (hpq s o hi).mp) _ h
    exact fun s o r s' hi hp => hkeep s o r s' hi ((hpq s o hi).mp hp)
  · exact Throughout.mono I (fun s o hi => (hpq s o hi).mpr) hkeep h

lemma along_of_throughout {exec : σ → ω → Option (ρ × σ)} {step : τ → ω → ρ × τ} {C : σ → ω → Prop} {P : τ → ω → Prop}
    (R : σ → τ → Prop) (hstep : ∀ s t o, R s t → Returns (exec s o) fun (_, s') => R s' (step t o).2)
    (hc : ∀ s t o, R s t → C s o → P t o) {s : σ} {t : τ} (h : R s t) {os : List ω}
    (ht : Throughout exec C s os) : Along step P t os := by
  induction os generalizing s t with
  | nil => trivial
  | cons o os ih =>
    obtain ⟨⟨r, s'⟩, he, hr⟩ := hstep s t o h
    exact ⟨hc s t o h ht.1, ih hr (ht.2 r s' he)⟩

lemma runCalls_cons (exec : σ → ω → Option (ρ × σ)) (s : σ) (o : ω) (os : List ω) :
    runCalls exec s (o :: os) =
      exec s o >>= fun (r, s) => runCalls exec s os >>= fun (rs, s) => some (r :: rs, s) := rfl

lemma runCalls_returns {exec : σ → ω → Option (ρ × σ)} (I : σ → Prop)
    (hstep : ∀ s o, I s → Returns (exec s o) fun (_, s') => I s') {s : σ} (h : I s) (os : List ω) :
    Returns (runCalls exec s os) fun (_, s') => I s' := by
  induction os generalizing s with
  | nil => exact (returns_some _ _).mpr h
  | cons o os ih =>
    rw [runCalls_cons]
    refine (hstep s o h).bind fun (r, s₁) h₁ => (ih h₁).bind fun (rs, s₂) h₂ => ?_
    exact (returns_some _ _).mpr h₂

lemma runCalls_keeps {exec : σ → ω → Option (ρ × σ)} (I : σ → Prop)
    (hstep : ∀ s o r s', I s → exec s o = some (r, s') → I s') {s s' : σ} {os : List ω} {rs : List ρ} (h : I s)
    (hrun : runCalls exec s os = some (rs, s')) : I s' := by
  induction os generalizing s rs with
  | nil =>
    cases hrun
    exact h
  | cons o os ih =>
    obtain ⟨⟨r, s₁⟩, h₁, hrun⟩ := Option.bind_eq_some_iff.mp hrun
    obtain ⟨⟨rs', s₂⟩, h₂, heq⟩ := Option.bind_eq_some_iff.mp hrun
    cases heq
    exact ih (hstep _ _ _ _ h h₁) h₂

lemma Throughout.returns {exec : σ → ω → Option (ρ × σ)} {C : σ → ω → Prop} (I : σ → Prop)
    (hstep : ∀ s o, I s → C s o → Returns (exec s o) fun (_, s') => I s') {s : σ} (h : I s) {os : List ω}
    (ht : Throughout exec C s os) : Returns (runCalls exec s os) fun (_, s') => I s' := by
  induction os generalizing s with
  | nil => exact (returns_some _ _).mpr h
  | cons o os ih =>
    obtain ⟨⟨r, s₁⟩, he, h₁⟩ := hstep s o h ht.1
    rw [runCalls_cons]
    refine Returns.of_bind he ((ih h₁ (ht.2 r s₁ he)).bind fun (rs, s₂) h₂ => ?_)
    exact (returns_some _ _).mpr h₂

lemma throughout_of_runCalls {exec : σ → ω → Option (ρ × σ)} {C : σ → ω → Prop} (I : σ → Prop)
    (hstep : ∀ s o r s', I s → exec s o = some (r, s') → C s o ∧ I s') {s : σ} (h : I s) {os : List ω}
    {q : List ρ × σ} (hq : runCalls exec s os = some q) : Throughout exec C s os := by
  induction os generalizing s q with
  | nil => trivial
  | cons o os ih =>
    obtain ⟨⟨r, s₁⟩, he, hq⟩ := Option.bind_eq_some_iff.mp hq
    obtain ⟨⟨rs, s₂⟩, hrest, -⟩ := Option.bind_eq_some_iff.mp hq
    obtain ⟨hc, h₁⟩ := hstep s o r s₁ h he
    refine ⟨hc, fun r' s' he' => ?_⟩
    obtain ⟨-, rfl⟩ := Prod.mk.inj (Option.some.inj (he.symm.trans he'))
    exact ih h₁ hrest

theorem runCalls_refines {exec : σ → ω → Option (ρ × σ)} {step : τ → ω → ρ × τ} (R : σ → τ → Prop)
    (hstep : ∀ s t o, R s t →
      Returns (exec s o) fun (r, s') => r = (step t o).1 ∧ R s' (step t o).2)
    {s : σ} {t : τ} (h : R s t) (os : List ω) :
    Returns (runCalls exec s os) fun (rs, s') =>
      rs = (runSteps step t os).1 ∧ R s' (runSteps step t os).2 := by
  have hall : Along step (fun _ _ => True) t os := along_of_forall (fun _ _ => trivial) t os
  have hrun := runCalls_refines_iff R (fun _ _ => True) (fun _ _ => True)
    (fun s t o hr _ => (hstep s t o hr).mono fun _ ⟨h1, h2⟩ => ⟨iff_of_true h1 trivial, h2⟩) h os hall
  exact hrun.mono fun _ ⟨h1, h2⟩ => ⟨h1.mpr hall, h2⟩

lemma along_of_runCalls {exec : σ → ω → Option (ρ × σ)} {step : τ → ω → ρ × τ} (R : σ → τ → Prop)
    (L G : τ → ω → Prop)
    (hgood : ∀ s t o, R s t → L t o → G t o → Returns (exec s o) fun (_, s') => R s' (step t o).2)
    (hbad : ∀ s t o, R s t → L t o → ¬ G t o → exec s o = none) {s : σ} {t : τ} (h : R s t) {os : List ω}
    (hl : Along step L t os) {q : List ρ × σ} (hq : runCalls exec s os = some q) : Along step G t os := by
  induction os generalizing s t q with
  | nil => trivial
  | cons o os ih =>
    obtain ⟨⟨r, s₁⟩, h₁, hq⟩ := Option.bind_eq_some_iff.mp hq
    obtain ⟨⟨rs, s₂⟩, h₂, -⟩ := Option.bind_eq_some_iff.mp hq
    have hg : G t o := by
      by_contra hg
      rw [hbad s t o h hl.1 hg] at h₁
      cases h₁
    obtain ⟨⟨r', s'⟩, h', hR⟩ := hgood s t o h hl.1 hg
    cases h₁.symm.trans h'
    exact ⟨hg, ih hR hl.2 h₂⟩

end Xframe.Lib
