import Xframe.Comserv.RegExpLanguage

/-! Which reads the matcher makes: the string ends where its characters do, and a read behind them has no
result. An element that may take one more character than are left runs over the end. -/

namespace Xframe.Comserv.CRegExpElement

variable {C : Type}

def readIn (s : List C) (j : ℤ) : Option C := if 0 ≤ j then s[j.toNat]? else none

def Enters (x : CRegExpElement C) (objB objE target : ℤ) : Prop :=
  match x with
  | anyOne m => target - objB = m.maximum ∨ (target - objB < m.maximum ∧ m.minimum ≤ objE - objB)
  | exact m _ => target - objB ≤ m.maximum ∧ m.minimum ≤ objE - objB
  | group m _ _ => target - objB ≤ m.maximum ∧ m.minimum ≤ objE - objB

def countAt (x : CRegExpElement C) (objB target : ℤ) : ℤ :=
  match x with
  | anyOne m => if target - objB = m.maximum then m.maximum else max (target - objB) m.minimum
  | exact m _ => max (target - objB) (min m.minimum m.maximum)
  | group m _ _ => max (target - objB) (min m.minimum m.maximum)

variable [LE C]

def AcceptsTo (x : CRegExpElement C) (s : List C) (objB stop : ℤ) : Prop :=
  ∀ j, objB ≤ j → j < stop → ∃ c, readIn s j = some c ∧ x.Matches c

def Accepts (x : CRegExpElement C) (s : List C) (objB k : ℤ) : Prop :=
  match x with
  | anyOne _ => True
  | x => AcceptsTo x s objB (objB + k)

def RunsOver (x : CRegExpElement C) (s : List C) (objB k : ℤ) : Prop :=
  match x with
  | anyOne _ => False
  | x => ∃ stop, objB ≤ stop ∧ stop < objB + k ∧ readIn s stop = none ∧ AcceptsTo x s objB stop

def WorksFrom (s : List C) : List (CRegExpElement C) → ℤ → ℤ → Prop
  | [], objB, _ => objB = s.length
  | x :: next, objB, start => ∃ target, start ≤ target ∧
      (∀ t, start ≤ t → t ≤ target → Enters x objB s.length t ∧ Accepts x s objB (countAt x objB t)) ∧
      WorksFrom s next (objB + countAt x objB target) (objB + countAt x objB target)

def Works (s : List C) (elements : List (CRegExpElement C)) (objB : ℤ) : Prop := WorksFrom s elements objB objB

def OverrunsFrom (s : List C) : List (CRegExpElement C) → ℤ → ℤ → Prop
  | [], _, _ => False
  | x :: next, objB, start => ∃ target, start ≤ target ∧
      (∀ t, start ≤ t → t < target → Enters x objB s.length t ∧ Accepts x s objB (countAt x objB t) ∧
        ¬Works s next (objB + countAt x objB t)) ∧
      Enters x objB s.length target ∧ (RunsOver x s objB (countAt x objB target) ∨
        (Accepts x s objB (countAt x objB target) ∧
          OverrunsFrom s next (objB + countAt x objB target) (objB + countAt x objB target)))

/-- The search comes to an element that runs over the end: for all smaller targets the rest of the elements
did not work. -/
def Overruns (s : List C) (elements : List (CRegExpElement C)) (objB : ℤ) : Prop :=
  OverrunsFrom s elements objB objB

section Front

variable {s : List C} {objB target : ℤ}

lemma not_runsOver {x : CRegExpElement C} {k : ℤ} (h : Accepts x s objB k) : ¬RunsOver x s objB k := by
  have hby : AcceptsTo x s objB (objB + k) →
      ¬∃ stop, objB ≤ stop ∧ stop < objB + k ∧ readIn s stop = none ∧ AcceptsTo x s objB stop := by
    rintro h ⟨stop, hle, hlt, hnone, -⟩
    obtain ⟨c, hc, -⟩ := h stop hle hlt
    rw [hnone] at hc
    cases hc
  cases x with
  | exact m c => exact hby h
  | anyOne m => exact id
  | group m reversed componentList => exact hby h

lemma passWhile_in {accepts : C → Bool} {x : CRegExpElement C} (ha : ∀ c, accepts c = true ↔ x.Matches c)
    {m : EleModifier} {k : ℤ} (hk : k = max (target - objB) (min m.minimum m.maximum)) (hmax : k ≤ m.maximum)
    {passed : ℤ} (h0 : 0 ≤ passed) (hpk : passed ≤ k) (hbefore : AcceptsTo x s objB (objB + passed)) :
    (AcceptsTo x s objB (objB + k) → passWhile accepts (readIn s) m target (objB + passed) passed =
      some (if k = m.maximum ∧ target = objB + k then .certain else .unCertain, objB + k)) ∧
    ((∃ stop, objB ≤ stop ∧ stop < objB + k ∧ readIn s stop = none ∧ AcceptsTo x s objB stop) →
      passWhile accepts (readIn s) m target (objB + passed) passed = none) ∧
    (¬AcceptsTo x s objB (objB + k) →
      (¬∃ stop, objB ≤ stop ∧ stop < objB + k ∧ readIn s stop = none ∧ AcceptsTo x s objB stop) →
      ∃ p, passWhile accepts (readIn s) m target (objB + passed) passed = some (.certainNot, p)) := by
  obtain ⟨n, hn⟩ : ∃ n : ℕ, n = (k - passed).toNat := ⟨_, rfl⟩
  induction n generalizing passed with
  | zero =>
    obtain rfl : passed = k := by omega
    rw [passWhile, if_neg (by omega), if_neg (by omega)]
    refine ⟨fun _ => ?_, ?_, fun hno _ => absurd hbefore hno⟩
    · split_ifs <;> rfl
    · rintro ⟨stop, hle, hlt, hnone, -⟩
      obtain ⟨c, hc, -⟩ := hbefore stop hle hlt
      rw [hnone] at hc
      cases hc
  | succ n ih =>
    rw [passWhile, if_pos (by omega)]
    cases hread : readIn s (objB + passed) with
    | none =>
      refine ⟨fun hall => ?_, fun _ => rfl, fun _ hno => ?_⟩
      · obtain ⟨c, hc, -⟩ := hall (objB + passed) (by omega) (by omega)
        rw [hread] at hc
        cases hc
      · exact absurd ⟨objB + passed, by omega, by omega, hread, hbefore⟩ hno
    | some c =>
      dsimp only
      by_cases hc : accepts c = true
      · rw [if_pos hc]
        have hnext : AcceptsTo x s objB (objB + (passed + 1)) := by
          intro j hj hlt
          by_cases heq : j = objB + passed
          · exact ⟨c, heq ▸ hread, (ha c).mp hc⟩
          · exact hbefore j hj (by omega)
        rw [add_assoc]
        exact ih (by omega) (by omega) hnext (by omega)
      · rw [if_neg hc]
        have hno : ¬x.Matches c := fun hm => hc ((ha c).mpr hm)
        refine ⟨fun hall => ?_, ?_, fun _ _ => ⟨_, rfl⟩⟩
        · obtain ⟨d, hd, hm⟩ := hall (objB + passed) (by omega) (by omega)
          rw [hread, Option.some.injEq] at hd
          exact absurd (hd ▸ hm) hno
        · rintro ⟨stop, hle, hlt, hnone, hall⟩
          rcases lt_trichotomy stop (objB + passed) with hbelow | heq | habove
          · obtain ⟨d, hd, -⟩ := hbefore stop hle hbelow
            rw [hnone] at hd
            cases hd
          · rw [heq, hread] at hnone
            cases hnone
          · obtain ⟨d, hd, hm⟩ := hall (objB + passed) (by omega) habove
            rw [hread, Option.some.injEq] at hd
            exact absurd (hd ▸ hm) hno

structure Answers (x : CRegExpElement C) (s : List C) (objB target : ℤ) (result : Option (MResult × ℤ)) : Prop where
  refuses : ¬Enters x objB s.length target → ∃ p, result = some (.certainNot, p)
  passes : Enters x objB s.length target → Accepts x s objB (countAt x objB target) →
    ∃ r, result = some (r, objB + countAt x objB target) ∧ r ≠ .certainNot ∧
      (r = .certain → ¬Enters x objB s.length (target + 1))
  overruns : Enters x objB s.length target → RunsOver x s objB (countAt x objB target) → result = none
  fails : Enters x objB s.length target → ¬Accepts x s objB (countAt x objB target) →
    ¬RunsOver x s objB (countAt x objB target) → ∃ p, result = some (.certainNot, p)

variable [DecidableEq C] [DecidableLE C]

lemma matchFront_answers (x : CRegExpElement C) (s : List C) (ht : objB ≤ target) :
    Answers x s objB target (x.matchFront (readIn s) objB s.length target) := by
  have hby : ∀ {accepts : C → Bool} {y : CRegExpElement C}, (∀ c, accepts c = true ↔ y.Matches c) →
      ∀ m : EleModifier,
      (∀ t, Enters y objB s.length t ↔ t - objB ≤ m.maximum ∧ m.minimum ≤ s.length - objB) →
      countAt y objB target = max (target - objB) (min m.minimum m.maximum) →
      (∀ k, Accepts y s objB k ↔ AcceptsTo y s objB (objB + k)) →
      (∀ k, RunsOver y s objB k ↔
        ∃ stop, objB ≤ stop ∧ stop < objB + k ∧ readIn s stop = none ∧ AcceptsTo y s objB stop) →
      Answers y s objB target (matchFrontBy accepts (readIn s) m objB s.length target) := by
    intro accepts y ha m henters hcount haccepts hruns
    rw [matchFrontBy]
    by_cases h : target - objB ≤ m.maximum ∧ m.minimum ≤ s.length - objB
    · rw [if_pos h]
      have hstart : AcceptsTo y s objB (objB + 0) := fun j hj hlt => by omega
      obtain ⟨hall, hover, hno⟩ := passWhile_in ha hcount (by omega) le_rfl (by omega) hstart
      rw [add_zero] at hall hover hno
      refine ⟨fun hn => absurd ((henters target).mpr h) hn, fun _ hacc => ?_, fun _ hr => hover ((hruns _).mp hr),
        fun _ hacc hr => hno (fun hh => hacc ((haccepts _).mpr hh)) fun hh => hr ((hruns _).mpr hh)⟩
      refine ⟨_, hall ((haccepts _).mp hacc), by split_ifs <;> simp, fun hcertain hnext => ?_⟩
      split_ifs at hcertain with hlast
      have hle := ((henters _).mp hnext).1
      omega
    · rw [if_neg h]
      have hn : ¬Enters y objB s.length target := fun he => h ((henters target).mp he)
      exact ⟨fun _ => ⟨_, rfl⟩, fun he => absurd he hn, fun he => absurd he hn, fun he => absurd he hn⟩
  cases x with
  | exact m c =>
    exact hby (fun object => by rw [decide_eq_true_iff, Matches]) m (fun _ => Iff.rfl) rfl (fun _ => Iff.rfl)
      fun _ => Iff.rfl
  | group m reversed componentList =>
    exact hby (matchComponent_iff reversed componentList) m (fun _ => Iff.rfl) rfl (fun _ => Iff.rfl)
      fun _ => Iff.rfl
  | anyOne m =>
    have henters : ∀ t, Enters (anyOne m : CRegExpElement C) objB s.length t ↔
      t - objB = m.maximum ∨ (t - objB < m.maximum ∧ m.minimum ≤ s.length - objB) := fun _ => Iff.rfl
    have hcount : countAt (anyOne m : CRegExpElement C) objB target =
      if target - objB = m.maximum then m.maximum else max (target - objB) m.minimum := rfl
    rw [matchFront]
    by_cases hlast : target - objB = m.maximum
    · rw [if_pos hlast]
      rw [if_pos hlast] at hcount
      refine ⟨fun hn => absurd (Or.inl hlast) hn, fun _ _ => ⟨.certain, ?_, by simp, fun _ hnext => ?_⟩,
        fun _ hr => hr.elim, fun _ hacc => absurd trivial hacc⟩
      · rw [hcount, ← hlast, add_sub_cancel]
      · rw [henters] at hnext
        omega
    · rw [if_neg hlast]
      rw [if_neg hlast] at hcount
      by_cases hlt : target - objB < m.maximum ∧ m.minimum ≤ s.length - objB
      · rw [if_pos hlt]
        refine ⟨fun hn => absurd (Or.inr hlt) hn, fun _ _ => ⟨.unCertain, ?_, by simp, by simp⟩,
          fun _ hr => hr.elim, fun _ hacc => absurd trivial hacc⟩
        rw [hcount]
        split_ifs <;> congr 2 <;> omega
      · rw [if_neg hlt]
        have hn : ¬Enters (anyOne m : CRegExpElement C) objB s.length target := by
          rw [henters]
          tauto
        exact ⟨fun _ => ⟨_, rfl⟩, fun he => absurd he hn, fun he => absurd he hn, fun he => absurd he hn⟩

end Front

section Search

variable {s : List C} {objB start : ℤ} {x : CRegExpElement C}
  {next : List (CRegExpElement C)}

lemma not_worksFrom (h : ¬(Enters x objB s.length start ∧ Accepts x s objB (countAt x objB start))) :
    ¬WorksFrom s (x :: next) objB start := by
  rintro ⟨target, hle, hall, -⟩
  exact h (hall start le_rfl hle)

lemma not_overrunsFrom (h : ¬(Enters x objB s.length start ∧ Accepts x s objB (countAt x objB start)))
    (hr : Enters x objB s.length start → ¬RunsOver x s objB (countAt x objB start)) :
    ¬OverrunsFrom s (x :: next) objB start := by
  rintro ⟨target, hle, hall, hent, hcase⟩
  rcases hle.eq_or_lt with rfl | hlt
  · rcases hcase with hover | ⟨hacc, -⟩
    · exact hr hent hover
    · exact h ⟨hent, hacc⟩
  · obtain ⟨he, ha, -⟩ := hall start le_rfl hlt
    exact h ⟨he, ha⟩

lemma worksFrom_succ (he : Enters x objB s.length start) (ha : Accepts x s objB (countAt x objB start)) :
    WorksFrom s (x :: next) objB start ↔ Works s next (objB + countAt x objB start) ∨
      WorksFrom s (x :: next) objB (start + 1) := by
  constructor
  · rintro ⟨target, hle, hall, hrest⟩
    rcases hle.eq_or_lt with rfl | hlt
    · exact Or.inl hrest
    · exact Or.inr ⟨target, by omega, fun t h1 h2 => hall t (by omega) h2, hrest⟩
  · rintro (hrest | ⟨target, hle, hall, hrest⟩)
    · exact ⟨start, le_rfl, fun t h1 h2 => by rw [le_antisymm h2 h1]; exact ⟨he, ha⟩, hrest⟩
    · refine ⟨target, by omega, fun t h1 h2 => ?_, hrest⟩
      rcases h1.eq_or_lt with rfl | hlt
      · exact ⟨he, ha⟩
      · exact hall t (by omega) h2

lemma overrunsFrom_succ (he : Enters x objB s.length start) (ha : Accepts x s objB (countAt x objB start)) :
    OverrunsFrom s (x :: next) objB start ↔ Overruns s next (objB + countAt x objB start) ∨
      (¬Works s next (objB + countAt x objB start) ∧ OverrunsFrom s (x :: next) objB (start + 1)) := by
  constructor
  · rintro ⟨target, hle, hall, hent, hcase⟩
    rcases hle.eq_or_lt with rfl | hlt
    · exact Or.inl (hcase.resolve_left (not_runsOver ha)).2
    · exact Or.inr ⟨(hall start le_rfl hlt).2.2, target, by omega, fun t h1 h2 => hall t (by omega) h2, hent, hcase⟩
  · rintro (hrest | ⟨hno, target, hle, hall, hent, hcase⟩)
    · exact ⟨start, le_rfl, fun t h1 h2 => by omega, he, Or.inr ⟨ha, hrest⟩⟩
    · refine ⟨target, by omega, fun t h1 h2 => ?_, hent, hcase⟩
      rcases h1.eq_or_lt with rfl | hlt
      · exact ⟨he, ha, hno⟩
      · exact hall t (by omega) h2

variable [DecidableEq C] [DecidableLE C]

lemma matchFrom_inside (elements : List (CRegExpElement C)) (ht : objB ≤ start) :
    (OverrunsFrom s elements objB start → matchFrom (readIn s) s.length elements objB start = none) ∧
    (¬OverrunsFrom s elements objB start → ∃ found,
      matchFrom (readIn s) s.length elements objB start = some found ∧
        (found = true ↔ WorksFrom s elements objB start)) := by
  induction elements generalizing objB start with
  | nil =>
    refine ⟨False.elim, fun _ => ⟨decide (objB = s.length), by rw [matchFrom], ?_⟩⟩
    rw [decide_eq_true_iff, WorksFrom]
  | cons x next ih =>
    obtain ⟨n, hn⟩ : ∃ n : ℕ, n = (x.modifier.maximum + 1 + objB - start).toNat := ⟨_, rfl⟩
    induction n using Nat.strong_induction_on generalizing start with
    | _ n ihn =>
      have hans := matchFront_answers x s ht
      rw [matchFrom_cons]
      by_cases he : Enters x objB s.length start
      · by_cases ha : Accepts x s objB (countAt x objB start)
        · obtain ⟨r, hr, hne, hcertain⟩ := hans.passes he ha
          obtain ⟨hnone, hsome⟩ := ih (le_refl (objB + countAt x objB start))
          rw [hr, Option.bind_some, worksFrom_succ he ha, overrunsFrom_succ he ha]
          cases r with
          | certainNot => exact absurd rfl hne
          | certain =>
            have hstop := hcertain rfl
            have hover : ¬OverrunsFrom s (x :: next) objB (start + 1) :=
              not_overrunsFrom (fun h => hstop h.1) fun h => absurd h hstop
            have hworks : ¬WorksFrom s (x :: next) objB (start + 1) := not_worksFrom fun h => hstop h.1
            rw [or_iff_left hworks, or_iff_left fun h => hover h.2]
            exact ⟨hnone, hsome⟩
          | unCertain =>
            have hbound := unCertain_le hr
            obtain ⟨hnone', hsome'⟩ := ihn (x.modifier.maximum + 1 + objB - (start + 1)).toNat (by omega)
              (by omega : objB ≤ start + 1) rfl
            dsimp only
            by_cases hover : Overruns s next (objB + countAt x objB start)
            · rw [hnone hover]
              exact ⟨fun _ => rfl, fun h => absurd (Or.inl hover) h⟩
            · obtain ⟨found, hfound, hiff⟩ := hsome hover
              rw [hfound, Option.bind_some, or_iff_right hover]
              cases found with
              | true =>
                have hw : Works s next (objB + countAt x objB start) := hiff.mp rfl
                exact ⟨fun h => absurd hw h.1, fun _ => ⟨true, rfl, iff_of_true rfl (Or.inl hw)⟩⟩
              | false =>
                have hw : ¬Works s next (objB + countAt x objB start) := fun h =>
                  Bool.false_ne_true (hiff.mpr h)
                rw [if_neg Bool.false_ne_true, or_iff_right hw, and_iff_right hw]
                exact ⟨hnone', hsome'⟩
        · by_cases hr : RunsOver x s objB (countAt x objB start)
          · rw [hans.overruns he hr, Option.bind_none]
            refine ⟨fun _ => rfl, fun h => absurd ?_ h⟩
            exact ⟨start, le_rfl, fun t h1 h2 => by omega, he, Or.inl hr⟩
          · obtain ⟨p, hp⟩ := hans.fails he ha hr
            rw [hp, Option.bind_some]
            refine ⟨fun h => absurd h (not_overrunsFrom (fun h => ha h.2) fun _ => hr), fun _ => ⟨false, rfl, ?_⟩⟩
            exact iff_of_false Bool.false_ne_true (not_worksFrom fun h => ha h.2)
      · obtain ⟨p, hp⟩ := hans.refuses he
        rw [hp, Option.bind_some]
        refine ⟨fun h => absurd h (not_overrunsFrom (fun h => he h.1) fun h => absurd h he), fun _ => ⟨false, rfl, ?_⟩⟩
        exact iff_of_false Bool.false_ne_true (not_worksFrom fun h => he h.1)

theorem reads_inside_iff (elements : List (CRegExpElement C)) (s : List C) :
    (rootMatch elements (readIn s) s.length).isSome ↔ ¬Overruns s elements 0 := by
  obtain ⟨hnone, hsome⟩ := matchFrom_inside (s := s) elements (le_refl 0)
  constructor
  · intro h hover
    rw [rootMatch, matchImpl, hnone hover] at h
    cases h
  · intro h
    obtain ⟨found, hfound, -⟩ := hsome h
    rw [rootMatch, matchImpl, hfound]
    rfl

theorem reads_inside_fails : ¬∀ (elements : List (CRegExpElement ℕ)) (s : List ℕ),
    (rootMatch elements (readIn s) s.length).isSome := by
  intro h
  refine (reads_inside_iff _ _).mp (h [.exact ⟨0, 10000⟩ 97, .exact ⟨1, 1⟩ 98] [97]) ?_
  have hfew : ∀ {p : ℤ}, (∀ c, readIn [97] p = some c → c ≠ 98) → ¬Works [97] [exact ⟨1, 1⟩ 98] p := by
    rintro p hp ⟨target, hle, hall, -⟩
    obtain ⟨-, hacc⟩ := hall p le_rfl hle
    obtain ⟨c, hc, hm⟩ := hacc p le_rfl (by simp [countAt])
    exact hp c hc hm
  have hread : ∀ j : ℤ, 0 ≤ j → j < 1 → readIn [97] j = some 97 := by
    intro j h0 h1
    obtain rfl : j = 0 := by omega
    rfl
  have hcount : ∀ t : ℤ, 0 ≤ t → countAt (exact ⟨0, 10000⟩ 97) 0 t = t := by
    intro t h0
    simp [countAt, h0]
  refine ⟨2, by omega, fun t h0 h2 => ?_, by simp [Enters], Or.inl ?_⟩
  · rw [hcount t h0]
    refine ⟨by simp only [Enters, List.length_singleton]; omega, fun j hj hlt => ⟨97, hread j hj (by omega), rfl⟩, hfew ?_⟩
    intro c hc
    rcases (show t = 0 ∨ t = 1 by omega) with rfl | rfl
    · cases hc
      decide
    · cases hc
  · rw [hcount 2 (by omega)]
    exact ⟨1, by omega, by omega, rfl, fun j hj hlt => ⟨97, hread j hj hlt, rfl⟩⟩

end Search

end Xframe.Comserv.CRegExpElement
