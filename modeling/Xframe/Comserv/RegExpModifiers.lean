import Xframe.Comserv.RegExpGrammar

/-! What the modifier parser accepts. Its numbers are the values of the digits, wrapped. -/

namespace Xframe.Comserv

namespace CRegExpParser

variable {it it' : List Int8} {s s' : RangeState}

def unescaped (c : Int8) : GeneralChar := ⟨c, false⟩

def digitChar (d : Fin 10) : Int8 := (digit d).character

def upperChars : Option (List (Fin 10)) → List Int8
  | none => []
  | some ms => 44 :: ms.map digitChar

lemma range_tokens (ns : List (Fin 10)) (upper : Option (List (Fin 10))) :
    (ns.map digitChar ++ upperChars upper).map unescaped ++ [Suffix.closeChar] =
      ns.map digit ++ Suffix.upperTokens upper := by
  have hdigits (ds : List (Fin 10)) : (ds.map digitChar).map unescaped = ds.map digit := List.map_map
  rw [List.map_append, hdigits, List.append_assoc]
  congr 1
  cases upper with
  | none => rfl
  | some ms =>
    rw [upperChars, List.map_cons, hdigits]
    rfl

lemma isDigit_digitChar (d : Fin 10) : isDigit (digitChar d) = true := by
  revert d
  decide

lemma eq_digitChar {c : Int8} (h : isDigit c = true) : ∃ d, c = digitChar d := by
  obtain ⟨hlow, hhigh⟩ := Bool.and_eq_true_iff.1 h
  have hl : 48 ≤ c.toInt := Int8.le_iff_toInt_le.1 (of_decide_eq_true hlow)
  have hh : c.toInt ≤ 57 := Int8.le_iff_toInt_le.1 (of_decide_eq_true hhigh)
  obtain ⟨n, hn⟩ : ∃ n : ℕ, c.toInt = 48 + n := ⟨(c.toInt - 48).toNat, by omega⟩
  have hlt : n < 10 := by omega
  have hc : c = Int8.ofInt (48 + n) := hn ▸ (Int8.ofInt_toInt c).symm
  refine ⟨⟨n, hlt⟩, hc.trans ?_⟩
  interval_cases n <;> rfl

section Numbers

lemma wrap_addDigit (n : ℤ) (d : Fin 10) : addDigit (wrap n) (digitChar d) = wrap (n * 10 + (d : ℤ)) := by
  have hd : (digitChar d).toInt - 48 = (d : ℤ) := by
    revert d
    decide
  rw [addDigit, hd, wrap, wrap, wrap, wrap, Int.bmod_mul_bmod, Int.bmod_add_bmod]

lemma foldl_addDigit (ds : List (Fin 10)) (n : ℤ) :
    ds.foldl (fun n d => addDigit n (digitChar d)) (wrap n) = wrap (ds.foldl (fun n d => n * 10 + (d : ℤ)) n) := by
  induction ds generalizing n with
  | nil => rfl
  | cons d ds ih =>
    rw [List.foldl_cons, wrap_addDigit, ih]
    rfl

lemma read_value (ds : List (Fin 10)) : ds.foldl (fun n d => addDigit n (digitChar d)) 0 = wrap (value ds) :=
  foldl_addDigit ds 0

end Numbers

section Fold

lemma fold_min (ds : List (Fin 10)) (n m : ℤ) (nRead mRead cRead : Bool) :
    (ds.map digitChar).foldlM rangeStep ⟨false, n, m, nRead, mRead, cRead⟩ =
      some ⟨false, ds.foldl (fun n d => addDigit n (digitChar d)) n, m, nRead || ds ≠ [], mRead, cRead⟩ := by
  induction ds generalizing n nRead with
  | nil =>
    simp only [ne_eq, not_true, decide_false, Bool.or_false]
    rfl
  | cons d ds ih =>
    have hstep : rangeStep ⟨false, n, m, nRead, mRead, cRead⟩ (digitChar d) =
        some ⟨false, addDigit n (digitChar d), m, true, mRead, cRead⟩ := by
      rw [rangeStep, if_neg Bool.false_ne_true, if_pos (isDigit_digitChar d)]
    rw [List.map_cons, List.foldlM_cons, hstep]
    apply (ih _ true).trans
    simp only [Bool.true_or, ne_eq, reduceCtorEq, not_false_eq_true, decide_true, Bool.or_true, List.foldl_cons]

lemma fold_max (ds : List (Fin 10)) (n m : ℤ) (nRead mRead cRead : Bool) :
    (ds.map digitChar).foldlM rangeStep ⟨true, n, m, nRead, mRead, cRead⟩ =
      some ⟨true, n, ds.foldl (fun n d => addDigit n (digitChar d)) m, nRead, mRead || ds ≠ [], cRead⟩ := by
  induction ds generalizing m mRead with
  | nil =>
    simp only [ne_eq, not_true, decide_false, Bool.or_false]
    rfl
  | cons d ds ih =>
    have hstep : rangeStep ⟨true, n, m, nRead, mRead, cRead⟩ (digitChar d) =
        some ⟨true, n, addDigit m (digitChar d), nRead, true, cRead⟩ := by
      rw [rangeStep, if_pos rfl, if_pos (isDigit_digitChar d)]
    rw [List.map_cons, List.foldlM_cons, hstep]
    apply (ih _ true).trans
    simp only [Bool.true_or, ne_eq, reduceCtorEq, not_false_eq_true, decide_true, Bool.or_true, List.foldl_cons]

def firstRange : RangeState := ⟨false, 0, 0, false, false, false⟩

def rangeState (ns : List (Fin 10)) : Option (List (Fin 10)) → RangeState
  | none => ⟨false, wrap (value ns), 0, ns ≠ [], false, false⟩
  | some ms => ⟨true, wrap (value ns), wrap (value ms), true, ms ≠ [], true⟩

lemma fold_range {ns : List (Fin 10)} {upper : Option (List (Fin 10))} (h : (Suffix.range ns upper).Shape) :
    (ns.map digitChar ++ upperChars upper).foldlM rangeStep firstRange = some (rangeState ns upper) := by
  rw [List.foldlM_append, firstRange, fold_min, read_value]
  cases upper with
  | none => rfl
  | some ms =>
    have hn : (decide (ns ≠ [])) = true := decide_eq_true h
    have hstep : rangeStep ⟨false, wrap (value ns), 0, false || ns ≠ [], false, false⟩ 44 =
        some ⟨true, wrap (value ns), 0, true, false, true⟩ := by
      rw [hn]
      rfl
    rw [upperChars, Option.bind_eq_bind, Option.bind_some, List.foldlM_cons, hstep]
    apply (fold_max ms _ 0 true false true).trans
    rw [read_value]
    rfl

lemma fold_digits {cs : List Int8} (h : cs.foldlM rangeStep s = some s') :
    (s.readingMax = true → ∃ ms : List (Fin 10), cs = ms.map digitChar) ∧
      (s.readingMax = false → ∃ (ns : List (Fin 10)) (upper : Option (List (Fin 10))), cs = ns.map digitChar ++ upperChars upper ∧
        (upper ≠ none → s.minRead = true ∨ ns ≠ [])) := by
  induction cs generalizing s with
  | nil => exact ⟨fun hs => ⟨[], rfl⟩, fun hs => ⟨[], none, rfl, fun hn => absurd rfl hn⟩⟩
  | cons c cs ih =>
    obtain ⟨s₁, hstep, hfold⟩ := Option.bind_eq_some_iff.1 h
    obtain ⟨hmax, hmin⟩ := ih hfold
    unfold rangeStep at hstep
    split_ifs at hstep with hr hd hd hc hn
    · obtain ⟨d, rfl⟩ := eq_digitChar hd
      cases hstep
      obtain ⟨ms, rfl⟩ := hmax hr
      exact ⟨fun hs => ⟨d :: ms, rfl⟩, fun hs => absurd (hr.symm.trans hs) (by decide)⟩
    · obtain ⟨d, rfl⟩ := eq_digitChar hd
      cases hstep
      have hs := Bool.eq_false_iff.2 hr
      obtain ⟨ns, upper, rfl, -⟩ := hmin hs
      exact ⟨fun h => absurd h hr, fun h => ⟨d :: ns, upper, rfl, fun hu => Or.inr (List.cons_ne_nil d ns)⟩⟩
    · cases hstep
      obtain ⟨ms, rfl⟩ := hmax rfl
      exact ⟨fun h => absurd h hr, fun h => ⟨[], some ms, hc ▸ rfl, fun hu => Or.inl hn⟩⟩

end Fold

section Loop

lemma rangeLoop_char {gc : GeneralChar} (h : getNextChar it = some (gc, it')) : rangeLoop s it =
    if gc.escaped then if gc.character = 125 then some (s, it') else none
    else (rangeStep s gc.character).bind (rangeLoop · it') := by
  rw [rangeLoop.eq_def]
  split
  · next hn =>
    rw [hn] at h
    cases h
  · next gc it₁ hget =>
    rw [h] at hget
    cases hget
    cases rangeStep s gc.character <;> rfl

lemma rangeLoop_sound (h : rangeLoop s it = some (s', it')) : ∃ cs : List Int8,
    it = textOf (cs.map unescaped ++ [Suffix.closeChar]) ++ it' ∧ cs.foldlM rangeStep s = some s' := by
  fun_induction rangeLoop s it with
  | case1 => cases h
  | case2 s it gc it₁ hget he hc =>
    cases h
    obtain ⟨c, e⟩ := gc
    obtain rfl : e = true := he
    obtain rfl : c = 125 := hc
    exact ⟨[], (getNextChar_eq_some.1 hget).2, rfl⟩
  | case3 => cases h
  | case4 => cases h
  | case5 s it gc it₁ hget he s₁ hstep ih =>
    obtain ⟨cs, rfl, hfold⟩ := ih h
    obtain ⟨hv, rfl⟩ := getNextChar_eq_some.1 hget
    obtain ⟨c, e⟩ := gc
    obtain rfl : e = false := Bool.eq_false_iff.2 he
    refine ⟨c :: cs, ?_, Option.bind_eq_some_iff.2 ⟨s₁, hstep, hfold⟩⟩
    rw [List.map_cons, List.cons_append, textOf_cons, List.append_assoc]
    rfl

lemma rangeLoop_complete {cs : List Int8} (hcs : ∀ t ∈ cs.map unescaped, t.Valid)
    (h : cs.foldlM rangeStep s = some s') :
    rangeLoop s (textOf (cs.map unescaped ++ [Suffix.closeChar]) ++ it') = some (s', it') := by
  induction cs generalizing s with
  | nil =>
    cases h
    have hget : getNextChar (textOf ([] ++ [Suffix.closeChar]) ++ it') = some (Suffix.closeChar, it') := rfl
    exact rangeLoop_char hget
  | cons c cs ih =>
    obtain ⟨s₁, hstep, hfold⟩ := Option.bind_eq_some_iff.1 h
    obtain ⟨hv, hcs⟩ := List.forall_mem_cons.1 hcs
    rw [List.map_cons, List.cons_append, textOf_cons, List.append_assoc, rangeLoop_char (getNextChar_text hv _)]
    apply (if_neg Bool.false_ne_true).trans
    exact Option.bind_eq_some_iff.2 ⟨s₁, hstep, ih hcs hfold⟩

end Loop

def rangeText (ns : List (Fin 10)) (upper : Option (List (Fin 10))) : List Int8 :=
  textOf (ns.map digit ++ Suffix.upperTokens upper)

lemma rangeLoop_eq_some : rangeLoop firstRange it = some (s', it') ↔ ∃ ns upper, (Suffix.range ns upper).Shape ∧
    it = rangeText ns upper ++ it' ∧ s' = rangeState ns upper := by
  constructor
  · intro h
    obtain ⟨cs, rfl, hfold⟩ := rangeLoop_sound h
    obtain ⟨ns, upper, rfl, hn⟩ := (fold_digits hfold).2 rfl
    have hshape : (Suffix.range ns upper).Shape := by
      cases upper with
      | none => exact trivial
      | some ms => exact (hn (Option.some_ne_none ms)).resolve_left Bool.false_ne_true
    refine ⟨ns, upper, hshape, ?_, Option.some.inj (hfold.symm.trans (fold_range hshape))⟩
    rw [range_tokens]
    rfl
  · rintro ⟨ns, upper, hshape, rfl, rfl⟩
    have hv := (Suffix.range ns upper).tokens_valid
    rw [rangeText, ← range_tokens]
    apply rangeLoop_complete ?_ (fold_range hshape)
    intro t ht
    apply hv
    apply List.mem_cons_of_mem
    rw [← range_tokens]
    exact List.mem_append_left _ ht

lemma produceModifierRange_eq_some {m : EleModifier} : produceModifierRange it = some (m, it') ↔
    ∃ ns upper, (Suffix.range ns upper).Shape ∧ (Suffix.range ns upper).Ordered (wrap ∘ value) ∧
      it = rangeText ns upper ++ it' ∧ m = (Suffix.range ns upper).modifier (wrap ∘ value) := by
  constructor
  · intro h
    obtain ⟨⟨s, it₁⟩, hloop, h⟩ := Option.bind_eq_some_iff.1 h
    obtain ⟨ns, upper, hshape, rfl, rfl⟩ := rangeLoop_eq_some.1 hloop
    cases upper with
    | none =>
      cases h
      exact ⟨ns, none, hshape, trivial, rfl, rfl⟩
    | some ms =>
      by_cases hm : ms = []
      · subst hm
        cases h
        exact ⟨ns, some [], hshape, fun hm => absurd rfl hm, rfl, rfl⟩
      · have hread : (rangeState ns (some ms)).maxRead = true := decide_eq_true hm
        dsimp only at h
        rw [if_pos hread] at h
        split_ifs at h with hlt
        cases h
        refine ⟨ns, some ms, hshape, fun hm => not_lt.1 hlt, rfl, ?_⟩
        rw [Suffix.modifier, if_neg hm]
        rfl
  · rintro ⟨ns, upper, hshape, ho, rfl, rfl⟩
    refine Option.bind_eq_some_iff.2 ⟨_, rangeLoop_eq_some.2 ⟨ns, upper, hshape, rfl, rfl⟩, ?_⟩
    cases upper with
    | none => rfl
    | some ms =>
      by_cases hm : ms = []
      · subst hm
        rfl
      · have hread : (rangeState ns (some ms)).maxRead = true := decide_eq_true hm
        apply (if_pos hread).trans
        apply (if_neg (not_lt.2 (ho hm))).trans
        rw [Suffix.modifier, if_neg hm]
        rfl

def Ends (it : List Int8) : Prop := it = [] ∨ ∃ t it', getNextChar it = some (t, it') ∧ t ∉ Suffix.openers

lemma mem_openers {c : Int8} {e : Bool} : ⟨c, e⟩ ∈ Suffix.openers ↔ if e then c = 123 else c = 63 ∨ c = 43 ∨ c = 42 := by
  cases e <;> simp [Suffix.openers, Suffix.optionChar, Suffix.plusChar, Suffix.starChar, Suffix.openChar]

lemma produceElementModifier_sound {m : EleModifier} (h : produceElementModifier it = some (m, it')) :
    ∃ x : Suffix, x.Shape ∧ x.Ordered (wrap ∘ value) ∧ (x = .none → Ends it') ∧ it = textOf x.tokens ++ it' ∧
      m = x.modifier (wrap ∘ value) := by
  unfold produceElementModifier at h
  split_ifs at h with hnil
  · cases h
    exact ⟨.none, trivial, trivial, fun hn => Or.inl hnil, rfl, rfl⟩
  · obtain ⟨⟨⟨c, e⟩, it₁⟩, hget, h⟩ := Option.bind_eq_some_iff.1 h
    obtain ⟨-, hit⟩ := getNextChar_eq_some.1 hget
    dsimp only at h
    split_ifs at h with he hc hc hc hc
    · obtain rfl : e = true := he
      obtain ⟨ns, upper, hshape, ho, rfl, rfl⟩ := produceModifierRange_eq_some.1 h
      refine ⟨.range ns upper, hshape, ho, Suffix.noConfusion, ?_, rfl⟩
      rw [hit, hc]
      rfl
    · cases h
      refine ⟨.none, trivial, trivial, fun hn => Or.inr ⟨_, it₁, hget, fun hm => ?_⟩, rfl, rfl⟩
      have ho := mem_openers.1 hm
      rw [if_pos he] at ho
      exact hc ho
    all_goals obtain rfl : e = false := Bool.eq_false_iff.2 he
    · obtain rfl : c = 63 := hc
      cases h
      exact ⟨.option, trivial, trivial, Suffix.noConfusion, hit, rfl⟩
    · obtain rfl : c = 43 := hc
      cases h
      exact ⟨.plus, trivial, trivial, Suffix.noConfusion, hit, rfl⟩
    · obtain rfl : c = 42 := hc
      cases h
      exact ⟨.star, trivial, trivial, Suffix.noConfusion, hit, rfl⟩
    · cases h
      refine ⟨.none, trivial, trivial, fun hn => Or.inr ⟨_, it₁, hget, fun hm => ?_⟩, rfl, rfl⟩
      rcases mem_openers.1 hm with ho | ho | ho <;> contradiction

lemma produceElementModifier_complete {x : Suffix} (hshape : x.Shape) (ho : x.Ordered (wrap ∘ value))
    (hends : x = .none → Ends it') :
    produceElementModifier (textOf x.tokens ++ it') = some (x.modifier (wrap ∘ value), it') := by
  cases x with
  | none =>
    rcases hends rfl with rfl | ⟨⟨c, e⟩, it₁, hget, hm⟩
    · rfl
    · have hnil : it' ≠ [] := by
        rintro rfl
        cases hget
      apply (if_neg hnil).trans
      apply Option.bind_eq_some_iff.2 ⟨_, hget, ?_⟩
      rw [mem_openers] at hm
      cases e with
      | true => exact if_neg hm
      | false =>
        obtain ⟨hoption, hplus, hstar⟩ : c ≠ 63 ∧ c ≠ 43 ∧ c ≠ 42 := by simpa using hm
        dsimp only
        rw [if_neg Bool.false_ne_true, if_neg hoption, if_neg hplus, if_neg hstar]
        rfl
  | option | plus | star => rfl
  | range ns upper => exact produceModifierRange_eq_some.2 ⟨ns, upper, hshape, ho, rfl, rfl⟩

end CRegExpParser

end Xframe.Comserv
