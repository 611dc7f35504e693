import Xframe.Lib.Refine

/-! `COverflow` of `ofcounter.C`: the calls of each second are counted, some are refused once there are
too many, and the limit is lower in the seconds behind an overloaded one. -/

namespace Xframe.Comserv

open Xframe.Lib

structure Thresholds where
  caps : ℤ
  pd : ℤ
  start1 : ℤ
  start2 : ℤ
  caps_pos : 0 < caps
  start1_le : start1 ≤ start2
  start2_le : start2 ≤ caps
  caps_le : caps ≤ pd

structure COverflow where
  preTime : ℤ
  prePolicy : Bool
  curCaps : ℤ
  curTime : ℤ
  maxCapsTime : ℤ
  maxCaps : ℤ
  capsLimition : ℤ
  pd : ℤ
  pdLimition : ℤ
  start1Limition : ℤ
  start2Limition : ℤ
  curLimition : ℤ
  flowControl : Bool
  deriving DecidableEq

namespace COverflow

/-- The value of a 64 bit difference or of an `int` sum as an `int`. -/
def int (n : ℤ) : ℤ := n.bmod (2 ^ 32)

def new (th : Thresholds) (now : ℤ) : COverflow where
  preTime := now
  prePolicy := true
  curCaps := 0
  curTime := now
  maxCapsTime := 0
  maxCaps := 0
  capsLimition := th.caps
  pd := 0
  pdLimition := th.pd
  start1Limition := th.start1
  start2Limition := th.start2
  curLimition := th.caps
  flowControl := false

def again (o : COverflow) : Bool × COverflow :=
  let o := { o with curCaps := int (o.curCaps + 1) }
  if o.capsLimition ≤ 0 then (true, o)
  else if o.flowControl then (false, o)
  else if o.curLimition ≤ o.curCaps ∧ o.curCaps < o.pdLimition then
    (!o.prePolicy, { o with prePolicy := !o.prePolicy })
  else if o.pdLimition ≤ o.curCaps then (false, { o with flowControl := true })
  else (true, o)

def toPd1 (o : COverflow) : COverflow := { o with pd := 1, curLimition := o.start1Limition }

def toPd2 (o : COverflow) : COverflow := { o with pd := 2, curLimition := o.start2Limition }

def toPd0 (o : COverflow) : COverflow := { o with pd := 0, curLimition := o.capsLimition }

def phase (i : ℤ) (o : COverflow) : COverflow :=
  if i = 1 then
    if o.flowControl then o.toPd1
    else if o.pd = 1 then o.toPd2
    else if o.pd = 2 then o.toPd0
    else o
  else if i = 2 then
    if o.flowControl then o.toPd2
    else if o.pd ≠ 0 then o.toPd0
    else o
  else if 2 < i then o.toPd0
  else o

def anew (i : ℤ) (o : COverflow) : COverflow :=
  let o := if o.maxCaps < o.curCaps then { o with maxCapsTime := o.preTime, maxCaps := o.curCaps } else o
  let o := { o with curCaps := 1, preTime := o.curTime }
  { phase i o with flowControl := false }

/-- The argument zero stands for the clock. -/
def checkOverflow (o : COverflow) (currenttime now : ℤ) : Bool × COverflow :=
  let o := { o with curTime := if currenttime ≠ 0 then currenttime else now }
  let i := int (o.curTime - o.preTime)
  if i = 0 then o.again else (true, o.anew i)

def getFlowInfo (o : COverflow) : (ℤ × ℤ) × COverflow :=
  ((o.maxCaps, o.maxCapsTime), { o with maxCaps := 0, maxCapsTime := 0 })

end COverflow

structure Tally where
  second : ℤ
  answers : List Bool
  followsOverload : Bool
  largest : ℕ
  deriving DecidableEq

namespace Tally

def new (now : ℤ) : Tally := ⟨now, [], false, 0⟩

def overloaded (pd : ℤ) (answers : List Bool) : Bool := (answers.drop (pd - 1).toNat).contains false

def call (y : Tally) (pd t : ℤ) (admitted : Bool) : Tally :=
  if t = y.second then { y with answers := y.answers ++ [admitted] }
  else ⟨t, [admitted], t = y.second + 1 && overloaded pd y.answers, max y.largest y.answers.length⟩

def report (y : Tally) : Tally := { y with largest := 0 }

end Tally

inductive FlowCall where
  | check (currenttime now : ℤ)
  | info

structure Guarded where
  guard : COverflow
  tally : Tally
  deriving DecidableEq

namespace Guarded

def step (g : Guarded) : FlowCall → Unit × Guarded
  | .check currenttime now =>
    let (admitted, guard) := g.guard.checkOverflow currenttime now
    ((), ⟨guard, g.tally.call guard.pdLimition guard.curTime admitted⟩)
  | .info => ((), ⟨g.guard.getFlowInfo.2, g.tally.report⟩)

def start (th : Thresholds) (now : ℤ) : Guarded := ⟨.new th now, .new now⟩

def Ordered (g : Guarded) : FlowCall → Prop
  | .check currenttime _ => currenttime ≠ 0 ∧ (g.tally.answers ≠ [] → g.tally.second ≤ currenttime)
  | .info => True

/-- The counters are wide enough: for the calls of the second, and for the seconds since the last call. -/
def Fits (g : Guarded) : FlowCall → Prop
  | .check t _ =>
    if t = g.tally.second then (g.tally.answers.length + 1 : ℤ) < 2 ^ 31 else ¬(2 ^ 32 : ℤ) ∣ t - g.tally.second
  | .info => True

instance (g : Guarded) : (c : FlowCall) → Decidable (g.Ordered c)
  | .check currenttime _ => inferInstanceAs (Decidable (currenttime ≠ 0 ∧ (g.tally.answers ≠ [] → g.tally.second ≤ currenttime)))
  | .info => isTrue trivial

instance (g : Guarded) : (c : FlowCall) → Decidable (g.Fits c)
  | .check t _ => inferInstanceAs (Decidable (if t = g.tally.second then (g.tally.answers.length + 1 : ℤ) < 2 ^ 31
      else ¬(2 ^ 32 : ℤ) ∣ t - g.tally.second))
  | .info => isTrue trivial

structure Fair (pd cur : ℤ) (answers : List Bool) : Prop where
  admitted : (answers.count true : ℤ) ≤ max 1 (pd - 1)
  refused : ∀ i : ℕ, pd < i + 1 → answers[i]? ≠ some true
  alternate : ∀ i : ℕ, 1 ≤ i → cur ≤ i + 1 → (i + 2 : ℤ) < pd → ∀ a b, answers[i]? = some a →
    answers[i + 1]? = some b → a ≠ b

def Phased (th : Thresholds) (pd cur : ℤ) : Prop :=
  (pd = 0 ∧ cur = th.caps) ∨ (pd = 1 ∧ cur = th.start1) ∨ (pd = 2 ∧ cur = th.start2)

structure Limited (th : Thresholds) (g : Guarded) : Prop where
  phase : Phased th g.guard.pd g.guard.curLimition
  fair : Fair th.pd g.guard.curLimition g.tally.answers
  slow : g.tally.followsOverload = true → g.guard.curLimition = th.start1

def Reports (g : Guarded) : Prop := g.guard.getFlowInfo.1.1 = g.tally.largest

variable {th : Thresholds} {g : Guarded} {pd cur : ℤ} {answers : List Bool}

lemma overloaded_iff (hpd : 0 < pd) :
    Tally.overloaded pd answers = true ↔ ∃ i : ℕ, pd ≤ i + 1 ∧ answers[i]? = some false := by
  rw [Tally.overloaded, List.contains_iff_mem, List.mem_iff_getElem?]
  constructor
  · rintro ⟨i, hi⟩
    rw [List.getElem?_drop] at hi
    exact ⟨_, by omega, hi⟩
  · rintro ⟨i, hle, hi⟩
    refine ⟨i - (pd - 1).toNat, ?_⟩
    rw [List.getElem?_drop, ← hi]
    congr 1
    omega

lemma overloaded_nil (pd : ℤ) : Tally.overloaded pd [] = false := by simp [Tally.overloaded]

lemma overloaded_first (pd : ℤ) : Tally.overloaded pd [true] = false := by
  rw [Tally.overloaded]
  cases (pd - 1).toNat <;> simp

lemma overloaded_snoc (hpd : 0 < pd) (a : Bool) : Tally.overloaded pd (answers ++ [a]) =
    (Tally.overloaded pd answers || (decide (pd ≤ answers.length + 1) && !a)) := by
  rw [Bool.eq_iff_iff, Bool.or_eq_true, Bool.and_eq_true, decide_eq_true_iff, Bool.not_eq_true',
    overloaded_iff hpd, overloaded_iff hpd]
  constructor
  · rintro ⟨i, hle, hi⟩
    rcases Nat.lt_trichotomy i answers.length with hlt | rfl | hgt
    · rw [List.getElem?_append_left hlt] at hi
      exact Or.inl ⟨i, hle, hi⟩
    · rw [List.getElem?_concat_length, Option.some.injEq] at hi
      exact Or.inr ⟨hle, hi⟩
    · rw [List.getElem?_eq_none (by rw [List.length_append, List.length_singleton]; omega)] at hi
      cases hi
  · rintro (⟨i, hle, hi⟩ | ⟨hle, rfl⟩)
    · exact ⟨i, hle, by rw [List.getElem?_append_left (List.getElem?_eq_some_iff.mp hi).1, hi]⟩
    · exact ⟨answers.length, hle, List.getElem?_concat_length⟩

lemma fair_first (hpd : 0 < pd) (cur : ℤ) : Fair pd cur [true] where
  admitted := by
    have hcount : List.count true [true] = 1 := rfl
    rw [hcount]
    omega
  refused i hi := by
    rw [List.getElem?_eq_none (by rw [List.length_singleton]; omega)]
    simp
  alternate i hi _ _ a b _ hb := by
    rw [List.getElem?_eq_none (by rw [List.length_singleton]; omega)] at hb
    cases hb

lemma Fair.snoc (h : Fair pd cur answers) (hpd : 0 < pd) {a : Bool}
    (hlate : answers ≠ [] → pd ≤ answers.length + 1 → a = false)
    (halt : 2 ≤ answers.length → cur ≤ answers.length → (answers.length + 1 : ℤ) < pd →
      answers.getLast? = some !a) : Fair pd cur (answers ++ [a]) where
  admitted := by
    rw [List.count_append]
    cases a with
    | false => exact h.admitted
    | true =>
      have hle := List.count_le_length (a := true) (l := answers)
      by_cases hnil : answers = []
      · rw [hnil]
        exact le_max_left _ _
      · have hlt : ¬pd ≤ answers.length + 1 := fun hle => Bool.false_ne_true (hlate hnil hle).symm
        have hone : List.count true [true] = 1 := rfl
        rw [hone]
        push_cast
        omega
  refused i hi := by
    rcases Nat.lt_trichotomy i answers.length with hlt | rfl | hgt
    · rw [List.getElem?_append_left hlt]
      exact h.refused i hi
    · rw [List.getElem?_concat_length, hlate (by rintro rfl; simp at hi; omega) (by omega)]
      simp
    · rw [List.getElem?_eq_none (by rw [List.length_append, List.length_singleton]; omega)]
      simp
  alternate i h1 hcur hlt x y hx hy := by
    rcases Nat.lt_trichotomy (i + 1) answers.length with hin | heq | hout
    · rw [List.getElem?_append_left (by omega)] at hx
      rw [List.getElem?_append_left hin] at hy
      exact h.alternate i h1 hcur hlt x y hx hy
    · rw [List.getElem?_append_left (by omega)] at hx
      have hlast := halt (by omega) (by omega) (by omega)
      rw [List.getLast?_eq_getElem?, ← heq, Nat.add_sub_cancel, hx, Option.some.injEq] at hlast
      rw [heq, List.getElem?_concat_length, Option.some.injEq] at hy
      rw [hlast, hy]
      exact Bool.not_ne_self y
    · rw [List.getElem?_eq_none (by rw [List.length_append, List.length_singleton]; omega)] at hy
      cases hy

structure Inv (th : Thresholds) (g : Guarded) : Prop extends Limited th g where
  capsLimition : g.guard.capsLimition = th.caps
  pdLimition : g.guard.pdLimition = th.pd
  start1Limition : g.guard.start1Limition = th.start1
  start2Limition : g.guard.start2Limition = th.start2
  preTime : g.guard.preTime = g.tally.second
  curCaps : g.guard.curCaps = g.tally.answers.length
  flowControl : g.guard.flowControl = Tally.overloaded th.pd g.tally.answers
  maxCaps : g.guard.maxCaps = g.tally.largest
  prePolicy : 2 ≤ g.tally.answers.length → g.guard.curLimition ≤ g.tally.answers.length →
    (g.tally.answers.length : ℤ) < th.pd → g.tally.answers.getLast? = some g.guard.prePolicy

lemma start_inv (th : Thresholds) (now : ℤ) : Inv th (start th now) where
  phase := Or.inl ⟨rfl, rfl⟩
  fair := ⟨by change (0 : ℤ) ≤ _; omega, fun i _ => by simp [start, Tally.new], fun i _ _ _ a b ha => by simp [start, Tally.new] at ha⟩
  slow h := absurd h Bool.false_ne_true
  capsLimition := rfl
  pdLimition := rfl
  start1Limition := rfl
  start2Limition := rfl
  preTime := rfl
  curCaps := rfl
  flowControl := (overloaded_nil th.pd).symm
  maxCaps := rfl
  prePolicy h := by simp [start, Tally.new] at h

lemma int_of_lt {n : ℤ} (h0 : 0 ≤ n) (h : n < 2 ^ 31) : COverflow.int n = n := by
  rw [COverflow.int, Int.bmod_def]
  split_ifs <;> omega

lemma int_eq_zero {n : ℤ} : COverflow.int n = 0 ↔ (2 ^ 32 : ℤ) ∣ n := by
  rw [COverflow.int, Int.bmod_def]
  split_ifs <;> omega

lemma overloaded_le (hpd : 0 < pd) (h : Tally.overloaded pd answers = true) : pd ≤ answers.length := by
  obtain ⟨i, hle, hi⟩ := (overloaded_iff hpd).mp h
  have hlt := (List.getElem?_eq_some_iff.mp hi).1
  omega

lemma pd_pos (th : Thresholds) : 0 < th.pd := th.caps_pos.trans_le th.caps_le

lemma Inv.count (h : Inv th g) {a flow policy : Bool} (t : ℤ)
    (hflow : flow = Tally.overloaded th.pd (g.tally.answers ++ [a]))
    (hlate : g.tally.answers ≠ [] → th.pd ≤ g.tally.answers.length + 1 → a = false)
    (halt : 2 ≤ g.tally.answers.length → g.guard.curLimition ≤ g.tally.answers.length →
      (g.tally.answers.length + 1 : ℤ) < th.pd → g.tally.answers.getLast? = some !a)
    (hpolicy : g.guard.curLimition ≤ g.tally.answers.length + 1 → (g.tally.answers.length + 1 : ℤ) < th.pd → a = policy) :
    Inv th ⟨{ g.guard with
        curTime := t, curCaps := g.tally.answers.length + 1, prePolicy := policy, flowControl := flow,
        capsLimition := th.caps, pdLimition := th.pd },
      { g.tally with answers := g.tally.answers ++ [a] }⟩ where
  phase := h.phase
  fair := h.fair.snoc (pd_pos th) hlate halt
  slow := h.slow
  capsLimition := rfl
  pdLimition := rfl
  start1Limition := h.start1Limition
  start2Limition := h.start2Limition
  preTime := h.preTime
  curCaps := by simp
  flowControl := hflow
  maxCaps := h.maxCaps
  prePolicy _ hcur hlt := by
    rw [List.length_append, List.length_singleton, Nat.cast_add, Nat.cast_one] at hcur hlt
    rw [List.getLast?_concat, hpolicy hcur hlt]

lemma again_inv (h : Inv th g) (hfew : (g.tally.answers.length + 1 : ℤ) < 2 ^ 31) (t : ℤ) :
    Inv th ⟨(COverflow.again { g.guard with curTime := t }).2,
      { g.tally with answers := g.tally.answers ++ [(COverflow.again { g.guard with curTime := t }).1] }⟩ := by
  have hpd := pd_pos th
  have hcaps : COverflow.int (g.guard.curCaps + 1) = g.tally.answers.length + 1 := by
    rw [h.curCaps, int_of_lt (by omega) hfew]
  have hsnoc (a : Bool) : Tally.overloaded th.pd (g.tally.answers ++ [a]) =
      (Tally.overloaded th.pd g.tally.answers ||
        (decide (th.pd ≤ g.tally.answers.length + 1) && !a)) := overloaded_snoc hpd a
  rw [COverflow.again]
  simp only [hcaps, h.pdLimition, h.capsLimition, if_neg (not_le.mpr th.caps_pos)]
  by_cases hflow : g.guard.flowControl = true
  · rw [if_pos hflow]
    have hover : Tally.overloaded th.pd g.tally.answers = true := h.flowControl ▸ hflow
    have hle := overloaded_le hpd hover
    refine h.count t ?_ (fun _ _ => rfl) (fun _ _ hlt => ?_) (fun _ hlt => ?_)
    · rw [hsnoc, hover, hflow, Bool.true_or]
    · omega
    · omega
  · rw [if_neg hflow]
    have hover : Tally.overloaded th.pd g.tally.answers = false := by
      rw [← h.flowControl]
      simpa using hflow
    rw [Bool.not_eq_true] at hflow
    by_cases htoggle : g.guard.curLimition ≤ (g.tally.answers.length : ℤ) + 1 ∧ (g.tally.answers.length + 1 : ℤ) < th.pd
    · rw [if_pos htoggle]
      refine h.count t ?_ (fun _ hle => absurd htoggle.2 (not_lt.mpr hle)) (fun h2 hcur hlt => ?_) (fun _ _ => rfl)
      · rw [hsnoc, hover, hflow, decide_eq_false (not_le.mpr htoggle.2), Bool.false_and, Bool.or_false]
      · rw [h.prePolicy h2 hcur (by omega), Bool.not_not]
    · rw [if_neg htoggle]
      by_cases hlate : th.pd ≤ (g.tally.answers.length : ℤ) + 1
      · rw [if_pos hlate]
        refine h.count t ?_ (fun _ _ => rfl) (fun _ _ hlt => ?_) (fun _ hlt => ?_)
        · rw [hsnoc, decide_eq_true hlate, Bool.not_false, Bool.and_true, Bool.or_true]
        · omega
        · omega
      · rw [if_neg hlate]
        refine h.count t ?_ (fun _ hle => absurd hle hlate) (fun _ hcur hlt => ?_) (fun hcur hlt => ?_)
        · rw [hsnoc, hover, hflow, decide_eq_false hlate, Bool.false_and, Bool.or_false]
        · omega
        · omega

lemma phase_spec (i : ℤ) {o : COverflow} (hphase : Phased th o.pd o.curLimition)
    (hcaps : o.capsLimition = th.caps) (h1 : o.start1Limition = th.start1) (h2 : o.start2Limition = th.start2) :
    ∃ pd cur, COverflow.phase i o = { o with pd := pd, curLimition := cur } ∧ Phased th pd cur := by
  have hto0 : ∃ pd cur, o.toPd0 = { o with pd := pd, curLimition := cur } ∧ Phased th pd cur :=
    ⟨0, o.capsLimition, rfl, Or.inl ⟨rfl, hcaps⟩⟩
  have hto1 : ∃ pd cur, o.toPd1 = { o with pd := pd, curLimition := cur } ∧ Phased th pd cur :=
    ⟨1, o.start1Limition, rfl, Or.inr (Or.inl ⟨rfl, h1⟩)⟩
  have hto2 : ∃ pd cur, o.toPd2 = { o with pd := pd, curLimition := cur } ∧ Phased th pd cur :=
    ⟨2, o.start2Limition, rfl, Or.inr (Or.inr ⟨rfl, h2⟩)⟩
  have hsame : ∃ pd cur, o = { o with pd := pd, curLimition := cur } ∧ Phased th pd cur :=
    ⟨o.pd, o.curLimition, rfl, hphase⟩
  rw [COverflow.phase]
  by_cases hi1 : i = 1
  · rw [if_pos hi1]
    split_ifs
    · exact hto1
    · exact hto2
    · exact hto0
    · exact hsame
  · rw [if_neg hi1]
    split_ifs
    · exact hto2
    · exact hto0
    · exact hsame
    · exact hto0
    · exact hsame

lemma phase_overloaded {o : COverflow} (hflow : o.flowControl = true) :
    (COverflow.phase 1 o).curLimition = o.start1Limition := by
  rw [COverflow.phase, if_pos rfl, if_pos hflow]
  rfl

lemma anew_inv (h : Inv th g) {t : ℤ} (hne : t ≠ g.tally.second) :
    Inv th ⟨COverflow.anew (COverflow.int (t - g.guard.preTime)) { g.guard with curTime := t },
      g.tally.call g.guard.pdLimition t true⟩ := by
  have htally : g.tally.call g.guard.pdLimition t true = g.tally.call th.pd t true := by rw [h.pdLimition]
  rw [htally, Tally.call, if_neg hne, COverflow.anew]
  -- the record of the largest second first, then the phase
  obtain ⟨o, ho, hmax⟩ : ∃ o : COverflow, (if g.guard.maxCaps < g.guard.curCaps then
      { g.guard with curTime := t, maxCapsTime := g.guard.preTime, maxCaps := g.guard.curCaps }
      else { g.guard with curTime := t }) = o ∧
      o.maxCaps = (max g.tally.largest g.tally.answers.length : ℕ) ∧ o.curTime = t ∧
      Phased th o.pd o.curLimition ∧ o.capsLimition = th.caps ∧ o.pdLimition = th.pd ∧
      o.start1Limition = th.start1 ∧ o.start2Limition = th.start2 ∧ o.flowControl = g.guard.flowControl := by
    have hc := h.curCaps
    have hm := h.maxCaps
    refine ⟨_, rfl, ?_⟩
    split_ifs with hlt
    · exact ⟨by dsimp only; omega, rfl, h.phase, h.capsLimition, h.pdLimition, h.start1Limition, h.start2Limition, rfl⟩
    · exact ⟨by dsimp only; omega, rfl, h.phase, h.capsLimition, h.pdLimition, h.start1Limition, h.start2Limition, rfl⟩
  obtain ⟨hmax, htime, hphase, hcaps, hpd, h1, h2, hflow⟩ := hmax
  dsimp only
  rw [ho]
  obtain ⟨pd, cur, heq, hph⟩ := phase_spec (COverflow.int (t - g.guard.preTime))
    (o := { o with curCaps := 1, preTime := o.curTime }) hphase hcaps h1 h2
  have hslow : (t = g.tally.second + 1 && Tally.overloaded th.pd g.tally.answers) = true → cur = th.start1 := by
    intro hover
    rw [Bool.and_eq_true, decide_eq_true_iff] at hover
    have hone : COverflow.int (t - g.guard.preTime) = 1 := by
      rw [hover.1, h.preTime, add_sub_cancel_left]
      decide
    have hp := phase_overloaded (o := { o with curCaps := 1, preTime := o.curTime })
      (hflow.trans (h.flowControl.trans hover.2))
    have heq' := heq
    rw [hone] at heq'
    rw [heq'] at hp
    exact hp.trans h1
  rw [heq]
  exact {
    phase := hph
    fair := fair_first (pd_pos th) cur
    slow := hslow
    capsLimition := hcaps
    pdLimition := hpd
    start1Limition := h1
    start2Limition := h2
    preTime := htime
    curCaps := rfl
    flowControl := (overloaded_first th.pd).symm
    maxCaps := hmax
    prePolicy := fun h => absurd h (by simp) }

lemma again_fields (o : COverflow) : o.again.2.pdLimition = o.pdLimition ∧ o.again.2.curTime = o.curTime := by
  rw [COverflow.again]
  dsimp only
  split_ifs <;> exact ⟨rfl, rfl⟩

lemma anew_fields (i : ℤ) (o : COverflow) : (o.anew i).pdLimition = o.pdLimition ∧ (o.anew i).curTime = o.curTime := by
  have hphase : ∀ o : COverflow, (COverflow.phase i o).pdLimition = o.pdLimition ∧
      (COverflow.phase i o).curTime = o.curTime := by
    intro o
    rw [COverflow.phase]
    split_ifs <;> exact ⟨rfl, rfl⟩
  obtain ⟨hpd, htime⟩ := hphase { (if o.maxCaps < o.curCaps then
    { o with maxCapsTime := o.preTime, maxCaps := o.curCaps } else o) with
      curCaps := 1
      preTime := (if o.maxCaps < o.curCaps then
        { o with maxCapsTime := o.preTime, maxCaps := o.curCaps } else o).curTime }
  constructor
  · exact hpd.trans (by dsimp only; split_ifs <;> rfl)
  · exact htime.trans (by dsimp only; split_ifs <;> rfl)

lemma step_inv (h : Inv th g) (c : FlowCall) (hord : g.Ordered c) (hfits : g.Fits c) : Inv th (g.step c).2 := by
  cases c with
  | info =>
    exact { h with maxCaps := rfl }
  | check t now =>
    obtain ⟨hzero, -⟩ := hord
    rw [Fits] at hfits
    rw [step, COverflow.checkOverflow, if_pos hzero]
    by_cases ht : t = g.tally.second
    · rw [if_pos ht] at hfits
      have hi : COverflow.int (t - g.guard.preTime) = 0 := by
        rw [h.preTime, ht, sub_self]
        decide
      dsimp only
      rw [if_pos hi]
      obtain ⟨hpd, htime⟩ := again_fields { g.guard with curTime := t }
      rw [Tally.call, htime, if_pos ht]
      exact again_inv h hfits t
    · rw [if_neg ht] at hfits
      have hi : COverflow.int (t - g.guard.preTime) ≠ 0 := by
        rw [h.preTime, Ne, int_eq_zero]
        exact hfits
      dsimp only
      rw [if_neg hi]
      obtain ⟨hpd, htime⟩ := anew_fields (COverflow.int (t - g.guard.preTime)) { g.guard with curTime := t }
      rw [hpd, htime]
      exact anew_inv h ht

theorem overflow_guarded (th : Thresholds) (now : ℤ) (calls : List FlowCall)
    (hord : Along step Ordered (start th now) calls) (hfits : Along step Fits (start th now) calls) :
    Along step (fun g c => Limited th (g.step c).2 ∧ (c = .info → Reports g)) (start th now) calls := by
  refine along_of_invariant (Inv th) (fun g c h hc => ?_) (start_inv th now) calls (hord.and hfits)
  have hinv := step_inv h c hc.1 hc.2
  exact ⟨⟨hinv.toLimited, fun _ => h.maxCaps⟩, hinv⟩

def aThresholds : Thresholds := ⟨2, 2, 0, 1, by decide, by decide, by decide, by decide⟩

theorem overflow_guarded_two : Along step (fun g c => Limited aThresholds (g.step c).2 ∧ (c = .info → Reports g))
    (start aThresholds 5) [.check 5 0, .check 5 0, .check 6 0, .info] :=
  overflow_guarded aThresholds 5 _ (by decide) (by decide)

theorem overflow_fails :
    let calls := [FlowCall.check 5 0, .check (5 + 2 ^ 32) 0, .check (6 + 2 ^ 32) 0, .info]
    Along step Ordered (start aThresholds 1) calls ∧
      ¬Along step (fun g c => Limited aThresholds (g.step c).2 ∧ (c = .info → Reports g)) (start aThresholds 1) calls := by
  refine ⟨by decide, ?_⟩
  rintro ⟨-, -, -, ⟨-, h⟩, -⟩
  exact absurd (h rfl) (by unfold Reports; decide)

end Guarded

end Xframe.Comserv
