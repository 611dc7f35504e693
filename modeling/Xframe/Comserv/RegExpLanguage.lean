import Xframe.Comserv.RegExpEle

/-! The language of a list of elements, and that the matcher decides it whatever lies behind the end
of the string. -/

namespace Xframe.Comserv.CRegExpElement

variable {C : Type}

lemma passWhile_spec {f : ℤ → C} {objB target : ℤ} (accepts : C → Bool) (m : EleModifier) (passed stop : ℤ)
    (hstop : stop = objB - passed + max (target - (objB - passed)) m.minimum)
    (hp : objB ≤ stop) (hmax : stop ≤ objB - passed + m.maximum) :
    (∃ p, passWhile accepts (fun j => some (f j)) m target objB passed = some (.certainNot, p) ∧
      ∃ j, objB ≤ j ∧ j < stop ∧ accepts (f j) = false) ∨
    ((∀ j, objB ≤ j → j < stop → accepts (f j) = true) ∧
      (passWhile accepts (fun j => some (f j)) m target objB passed = some (.certain, stop) ∧
          stop = objB - passed + m.maximum ∨
        passWhile accepts (fun j => some (f j)) m target objB passed = some (.unCertain, stop))) := by
  obtain ⟨n, hn⟩ : ∃ n : ℕ, n = (stop - objB).toNat := ⟨_, rfl⟩
  induction n generalizing objB passed with
  | zero =>
    have heq : objB = stop := by omega
    rw [passWhile, if_neg (by omega), if_neg (by omega)]
    refine Or.inr ⟨by omega, ?_⟩
    split
    · exact Or.inl ⟨by rw [heq], by omega⟩
    · exact Or.inr (by rw [heq])
  | succ n ih =>
    rw [passWhile, if_pos (by omega)]
    dsimp only
    cases hc : accepts (f objB) with
    | false => exact Or.inl ⟨objB, by simp, objB, le_rfl, by omega, hc⟩
    | true =>
      have hback : objB + 1 - (passed + 1) = objB - passed := by omega
      rw [if_pos rfl]
      rcases ih (passed + 1) (by rw [hback]; exact hstop) (by omega) (by rw [hback]; exact hmax) (by omega) with ⟨p, hpass, j, hj, hlt, hno⟩ | ⟨hall, hres⟩
      · exact Or.inl ⟨p, hpass, j, by omega, hlt, hno⟩
      · rw [hback] at hres
        refine Or.inr ⟨fun j hj hlt => ?_, hres⟩
        by_cases heq : j = objB
        · rw [heq]
          exact hc
        · exact hall j (by omega) hlt

variable [LE C]

def Matches (x : CRegExpElement C) (c : C) : Prop :=
  match x with
  | exact _ c₀ => c = c₀
  | anyOne _ => True
  | group _ reversed componentList =>
    (∃ item ∈ componentList, item.first ≤ c ∧ c ≤ item.last) ↔ reversed = false

def Proper (x : CRegExpElement C) : Prop := 0 ≤ x.modifier.minimum ∧ x.modifier.minimum ≤ x.modifier.maximum

def Takes (x : CRegExpElement C) (block : List C) : Prop :=
  x.modifier.minimum ≤ block.length ∧ block.length ≤ x.modifier.maximum ∧ ∀ c ∈ block, x.Matches c

def Language (elements : List (CRegExpElement C)) (s : List C) : Prop :=
  ∃ blocks : List (List C), blocks.flatten = s ∧ List.Forall₂ Takes elements blocks

section Positions

variable {f : ℤ → C} {objB objE target : ℤ} {x : CRegExpElement C} {elements : List (CRegExpElement C)}

def Block (x : CRegExpElement C) (f : ℤ → C) (objB k : ℤ) : Prop :=
  ∀ j, objB ≤ j → j < objB + k → x.Matches (f j)

def Splits (f : ℤ → C) (objE : ℤ) : List (CRegExpElement C) → ℤ → Prop
  | [], objB => objB = objE
  | x :: next, objB => ∃ k, x.modifier.minimum ≤ k ∧ k ≤ x.modifier.maximum ∧ Block x f objB k ∧
      Splits f objE next (objB + k)

def count (x : CRegExpElement C) (objB target : ℤ) : ℤ := max (target - objB) x.modifier.minimum

def Remains (f : ℤ → C) (objE : ℤ) : List (CRegExpElement C) → ℤ → ℤ → Prop
  | [], objB, _ => objB = objE
  | x :: next, objB, target => ∃ k, count x objB target ≤ k ∧ k ≤ x.modifier.maximum ∧ Block x f objB k ∧
      Splits f objE next (objB + k)

lemma splits_le (hp : ∀ x ∈ elements, Proper x) (h : Splits f objE elements objB) : objB ≤ objE := by
  induction elements generalizing objB with
  | nil => exact h.le
  | cons x next ih =>
    obtain ⟨k, hk, -, -, hrest⟩ := h
    have hle := ih (fun y hy => hp y (List.mem_cons_of_mem x hy)) hrest
    have h0 := (hp x List.mem_cons_self).1
    omega

lemma remains_start (hp : ∀ x ∈ elements, Proper x) : Remains f objE elements objB objB ↔ Splits f objE elements objB := by
  cases elements with
  | nil => exact Iff.rfl
  | cons x next =>
    have h0 := (hp x List.mem_cons_self).1
    have hcount : count x objB objB = x.modifier.minimum := by
      rw [count, sub_self, max_eq_right h0]
    rw [Remains, Splits, hcount]

lemma remains_next {next : List (CRegExpElement C)}
    (hfail : ¬Splits f objE next (objB + count x objB target)) :
    Remains f objE (x :: next) objB (target + 1) ↔ Remains f objE (x :: next) objB target := by
  have hcount : count x objB target = max (target - objB) x.modifier.minimum := rfl
  have hcount' : count x objB (target + 1) = max (target + 1 - objB) x.modifier.minimum := rfl
  constructor
  · rintro ⟨k, hk, hrest⟩
    exact ⟨k, by omega, hrest⟩
  · rintro ⟨k, hk, hm, hblock, hrest⟩
    refine ⟨k, ?_, hm, hblock, hrest⟩
    by_contra hlt
    obtain rfl : k = count x objB target := by omega
    exact hfail hrest

def ReadsString (f : ℤ → C) (s : List C) : Prop := ∀ i (h : i < s.length), f i = s[i]

lemma splits_iff_language {s : List C} (hf : ReadsString f s) (hp : ∀ x ∈ elements, Proper x) {n : ℕ}
    (hn : n ≤ s.length) : Splits f s.length elements n ↔ Language elements (s.drop n) := by
  induction elements generalizing n with
  | nil =>
    constructor
    · intro h
      have heq : n = s.length := by exact_mod_cast (show (n : ℤ) = s.length from h)
      exact ⟨[], by rw [heq, List.drop_length, List.flatten_nil], .nil⟩
    · rintro ⟨blocks, hflat, hblocks⟩
      cases hblocks
      have := List.drop_eq_nil_iff.mp hflat.symm
      exact congrArg Nat.cast (le_antisymm hn this)
  | cons x next ih =>
    have hnext : ∀ y ∈ next, Proper y := fun y hy => hp y (List.mem_cons_of_mem x hy)
    constructor
    · rintro ⟨k, hk, hkm, hblock, hrest⟩
      have h0 := (hp x List.mem_cons_self).1
      have hle := splits_le hnext hrest
      obtain ⟨m, rfl⟩ : ∃ m : ℕ, k = m := ⟨k.toNat, by omega⟩
      have hm : n + m ≤ s.length := by omega
      rw [← Nat.cast_add] at hrest
      obtain ⟨blocks, hflat, hblocks⟩ := (ih hnext hm).mp hrest
      have hlen : ((s.drop n).take m).length = m := by
        rw [List.length_take, List.length_drop]
        omega
      refine ⟨(s.drop n).take m :: blocks, ?_, .cons ⟨?_, ?_, ?_⟩ hblocks⟩
      · rw [List.flatten_cons, hflat, ← List.drop_drop, List.take_append_drop]
      · rw [hlen]
        exact hk
      · rw [hlen]
        exact hkm
      · intro c hc
        obtain ⟨i, hi, rfl⟩ := List.getElem_of_mem hc
        rw [hlen] at hi
        have := hblock (n + i : ℕ) (by omega) (by omega)
        rw [hf (n + i) (by omega)] at this
        rwa [List.getElem_take, List.getElem_drop]
    · rintro ⟨blocks, hflat, hblocks⟩
      cases hblocks with
      | @cons _ block _ blocks htakes hblocks =>
        obtain ⟨hmin, hmax, hall⟩ := htakes
        rw [List.flatten_cons] at hflat
        have hlen : n + block.length ≤ s.length := by
          have := congrArg List.length hflat
          rw [List.length_append, List.length_drop] at this
          omega
        have hrest : blocks.flatten = s.drop (n + block.length) := by
          rw [← List.drop_drop, ← hflat, List.drop_left]
        refine ⟨block.length, hmin, hmax, ?_, ?_⟩
        · intro j hj hlt
          obtain ⟨i, rfl⟩ : ∃ i : ℕ, j = (n + i : ℕ) := ⟨(j - n).toNat, by omega⟩
          have hi : i < block.length := by omega
          have hj : n + i < s.length := by omega
          have hget : s[n + i]? = block[i]? := by
            rw [← List.getElem?_drop, ← hflat, List.getElem?_append_left hi]
          rw [List.getElem?_eq_getElem hj, List.getElem?_eq_getElem hi, Option.some.injEq] at hget
          rw [hf (n + i) hj, hget]
          exact hall _ (List.getElem_mem hi)
        · rw [← Nat.cast_add]
          exact (ih hnext hlen).mpr ⟨blocks, hrest, hblocks⟩

structure Tried (x : CRegExpElement C) (f : ℤ → C) (objB objE target : ℤ) (result : MResult × ℤ) : Prop where
  failed : result.1 = .certainNot →
    ∀ k, count x objB target ≤ k → k ≤ x.modifier.maximum → objB + k ≤ objE → ¬Block x f objB k
  taken : result.1 ≠ .certainNot → result.2 = objB + count x objB target ∧
    count x objB target ≤ x.modifier.maximum ∧ Block x f objB (count x objB target)
  last : result.1 = .certain → count x objB target = x.modifier.maximum

lemma matchFrontBy_tried {accepts : C → Bool} (ha : ∀ c, accepts c = true ↔ x.Matches c) (hx : Proper x)
    (ht : objB ≤ target) : ∃ result,
      matchFrontBy accepts (fun j => some (f j)) x.modifier objB objE target = some result ∧
        Tried x f objB objE target result := by
  rw [matchFrontBy]
  have hcount : count x objB target = max (target - objB) x.modifier.minimum := rfl
  obtain ⟨h0, hmm⟩ := hx
  split
  · next hle =>
    rcases passWhile_spec (f := f) accepts x.modifier 0 (objB + count x objB target)
      (by rw [hcount, sub_zero]) (by omega) (by omega) with
      ⟨p, hpass, j, hj, hlt, hno⟩ | ⟨hall, hres⟩
    · refine ⟨_, hpass, fun _ k hk _ _ hblock => ?_, fun hne => absurd rfl hne, by simp⟩
      have hyes := (ha _).mpr (hblock j hj (by omega))
      rw [hno] at hyes
      exact Bool.false_ne_true hyes
    · have hblock : Block x f objB (count x objB target) := fun j hj hlt => (ha _).mp (hall j hj hlt)
      have hmax : count x objB target ≤ x.modifier.maximum := by omega
      rcases hres with ⟨hpass, hlast⟩ | hpass
      · exact ⟨_, hpass, by simp, fun _ => ⟨rfl, hmax, hblock⟩, fun _ => by omega⟩
      · exact ⟨_, hpass, by simp, fun _ => ⟨rfl, hmax, hblock⟩, by simp⟩
  · exact ⟨_, rfl, fun _ k hk hkm hke _ => by omega, fun hne => absurd rfl hne, by simp⟩

section Search

variable [DecidableLE C]

lemma matchComponent_iff (reversed : Bool) (componentList : List (CGroupItem C)) (c : C) :
    matchComponent reversed componentList c = true ↔
      ((∃ item ∈ componentList, item.first ≤ c ∧ c ≤ item.last) ↔ reversed = false) := by
  rw [matchComponent]
  cases reversed <;> simp

variable [DecidableEq C]

lemma matchFront_tried (f : ℤ → C) (objE : ℤ) (hx : Proper x) (ht : objB ≤ target) : ∃ result,
    x.matchFront (fun j => some (f j)) objB objE target = some result ∧ Tried x f objB objE target result := by
  cases x with
  | exact m c => exact matchFrontBy_tried (fun object => by rw [decide_eq_true_iff, Matches]) hx ht
  | group m reversed componentList => exact matchFrontBy_tried (matchComponent_iff reversed componentList) hx ht
  | anyOne m =>
    obtain ⟨h0, hmm⟩ := hx
    have hcount : count (anyOne m : CRegExpElement C) objB target = max (target - objB) m.minimum := rfl
    have hblock : ∀ k, Block (anyOne m : CRegExpElement C) f objB k := fun _ _ _ _ => trivial
    dsimp only [modifier] at h0 hmm
    rw [matchFront]
    split
    · exact ⟨_, rfl, by simp, fun _ => ⟨by dsimp only; omega, by dsimp only [modifier]; omega, hblock _⟩,
        fun _ => by dsimp only [modifier]; omega⟩
    split
    · refine ⟨_, rfl, by simp, fun _ => ⟨?_, by dsimp only [modifier]; omega, hblock _⟩, by simp⟩
      dsimp only
      split <;> omega
    · refine ⟨_, rfl, fun _ k hk hkm hke _ => ?_, fun hne => absurd rfl hne, by simp⟩
      dsimp only [modifier] at hkm
      omega

lemma matchFrom_cons (read : ℤ → Option C) (next : List (CRegExpElement C)) :
    matchFrom read objE (x :: next) objB target = (x.matchFront read objB objE target).bind fun (result, p) =>
      match result with
      | .certain => matchFrom read objE next p p
      | .certainNot => some false
      | .unCertain => (matchFrom read objE next p p).bind fun found =>
          if found then some true else matchFrom read objE (x :: next) objB (target + 1) := by
  rw [matchFrom]
  split
  · next h => rw [h]; rfl
  · next h => rw [h]; rfl
  · next h => rw [h]; rfl
  · next p h =>
    rw [h, Option.bind_some]
    dsimp only
    cases matchFrom read objE next p p with
    | none => rfl
    | some found => cases found <;> rfl

lemma matchFrom_decides (f : ℤ → C) (objE : ℤ) (hp : ∀ x ∈ elements, Proper x) (ht : objB ≤ target) :
    ∃ found, matchFrom (fun j => some (f j)) objE elements objB target = some found ∧
      (found = true ↔ Remains f objE elements objB target) := by
  induction elements generalizing objB target with
  | nil => exact ⟨decide (objB = objE), by rw [matchFrom], by rw [decide_eq_true_iff, Remains]⟩
  | cons x next ih =>
    have hx := hp x List.mem_cons_self
    have hnext : ∀ y ∈ next, Proper y := fun y hy => hp y (List.mem_cons_of_mem x hy)
    obtain ⟨n, hn⟩ : ∃ n : ℕ, n = (x.modifier.maximum + 1 + objB - target).toNat := ⟨_, rfl⟩
    induction n using Nat.strong_induction_on generalizing target with
    | _ n ihn =>
      obtain ⟨⟨result, p⟩, hfront, htried⟩ := matchFront_tried f objE hx ht
      rw [matchFrom_cons, hfront, Option.bind_some]
      cases result with
      | certainNot =>
        refine ⟨false, rfl, iff_of_false Bool.false_ne_true ?_⟩
        rintro ⟨k, hk, hkm, hblock, hrest⟩
        exact htried.failed rfl k hk hkm (splits_le hnext hrest) hblock
      | certain =>
        obtain ⟨rfl, hle, hblock⟩ := htried.taken (by simp)
        have hlast := htried.last rfl
        obtain ⟨found, hfound, hiff⟩ := ih hnext (le_refl (objB + count x objB target))
        refine ⟨found, hfound, hiff.trans ((remains_start hnext).trans ⟨?_, ?_⟩)⟩
        · exact fun hrest => ⟨_, le_rfl, hle, hblock, hrest⟩
        · rintro ⟨k, hk, hkm, -, hrest⟩
          obtain rfl : k = count x objB target := by omega
          exact hrest
      | unCertain =>
        obtain ⟨rfl, hle, hblock⟩ := htried.taken (by simp)
        obtain ⟨found, hfound, hiff⟩ := ih hnext (le_refl (objB + count x objB target))
        rw [remains_start hnext] at hiff
        dsimp only
        rw [hfound, Option.bind_some]
        cases found with
        | true => exact ⟨true, rfl, iff_of_true rfl ⟨_, le_rfl, hle, hblock, hiff.mp rfl⟩⟩
        | false =>
          rw [if_neg Bool.false_ne_true]
          have hbound := unCertain_le hfront
          obtain ⟨found, hfound, hiff'⟩ := ihn (x.modifier.maximum + 1 + objB - (target + 1)).toNat (by omega)
            (by omega : objB ≤ target + 1) rfl
          have hfail : ¬Splits f objE next (objB + count x objB target) := fun hs =>
            Bool.false_ne_true (hiff.mpr hs)
          exact ⟨found, hfound, hiff'.trans (remains_next hfail)⟩

lemma rootMatch_language (hp : ∀ x ∈ elements, Proper x) {s : List C} (hf : ReadsString f s) :
    ∃ found, rootMatch elements (fun j => some (f j)) s.length = some found ∧
      (found = true ↔ Language elements s) := by
  obtain ⟨found, hfound, hiff⟩ := matchFrom_decides f s.length hp (le_refl 0)
  refine ⟨found, hfound, hiff.trans ((remains_start hp).trans ?_)⟩
  have := splits_iff_language hf hp (Nat.zero_le s.length)
  rwa [List.drop_zero, Nat.cast_zero] at this

theorem rootMatch_decides (elements : List (CRegExpElement C)) (hp : ∀ x ∈ elements, Proper x) (s : List C)
    (f : ℤ → C) (hf : ReadsString f s) :
    ∃ found, rootMatch elements (fun j => some (f j)) s.length = some found ∧
      (found = true ↔ Language elements s) := rootMatch_language hp hf

def sampleRule : List (CRegExpElement ℕ) :=
  [.group ⟨0, 10000⟩ true [⟨48, 57⟩], .exact ⟨1, 1⟩ 97, .anyOne ⟨1, 1⟩]

def sampleReads (j : ℤ) : ℕ := if j = 0 then 98 else if j = 1 then 97 else if j = 2 then 49 else 97

theorem rootMatch_decides_sample : rootMatch sampleRule (fun j => some (sampleReads j)) 3 = some true := by
  have hp : ∀ x ∈ sampleRule, Proper x := by
    simp [sampleRule, Proper, modifier]
  have hf : ReadsString sampleReads [98, 97, 49] := by
    intro i hi
    match i, hi with
    | 0, _ => rfl
    | 1, _ => rfl
    | 2, _ => rfl
  obtain ⟨found, hfound, hiff⟩ := rootMatch_decides sampleRule hp [98, 97, 49] sampleReads hf
  have hin : Language sampleRule [98, 97, 49] := by
    refine ⟨[[98], [97], [49]], rfl, .cons ⟨by decide, by decide, ?_⟩ (.cons ⟨by decide, by decide, ?_⟩
      (.cons ⟨by decide, by decide, ?_⟩ .nil))⟩ <;> simp [Matches]
  rw [hiff.mpr hin] at hfound
  exact hfound

end Search

end Positions

end Xframe.Comserv.CRegExpElement
