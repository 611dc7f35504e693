import Xframe.Comserv.RegExpGroups
import Xframe.Comserv.RegExpModifiers

/-! The rule parser accepts its grammar as long as every range has a number, no class begins with `-` and the
bounds are in range; other rules it accepts or refuses against the grammar. -/

namespace Xframe.Comserv

namespace CRegExpParser

variable {it it' : List Int8}

lemma produceElementBody_sound {body : Body} (h : produceElementBody it = some (body, it')) :
    ∃ b : ItemBody, b.Shape ∧ it = textOf b.tokens ++ it' ∧ body = b.body := by
  obtain ⟨⟨⟨c, e⟩, it₁⟩, hget, h⟩ := Option.bind_eq_some_iff.1 h
  obtain ⟨hv, hit⟩ := getNextChar_eq_some.1 hget
  dsimp only at h
  split_ifs at h with he hc hc
  · cases h
    obtain rfl : e = true := he
    exact ⟨.char ⟨c, true⟩, ⟨hv, by simp [ItemBody.anyChar], by simp [ItemBody.beginChar]⟩, hit, rfl⟩
  all_goals obtain rfl : e = false := Bool.eq_false_iff.2 he
  · obtain rfl : c = 46 := hc
    cases h
    exact ⟨.any, trivial, hit, rfl⟩
  · obtain ⟨⟨⟨reversed, list⟩, it₂⟩, hgroup, h⟩ := Option.bind_eq_some_iff.1 h
    cases h
    obtain ⟨first, ps, hshape, hit, rfl⟩ := parseGroup_eq_some.1 hgroup
    exact ⟨.cls reversed first ps, hshape, hit, rfl⟩
  · cases h
    refine ⟨.char ⟨c, false⟩, ⟨hv, fun hany => ?_, fun hbegin => ?_⟩, hit, rfl⟩
    · exact absurd (congrArg GeneralChar.character hany) ‹¬c = 46›
    · exact absurd (congrArg GeneralChar.character hbegin) hc

lemma produceElementBody_complete {b : ItemBody} (h : b.Shape) :
    produceElementBody (textOf b.tokens ++ it') = some (b.body, it') := by
  cases b with
  | char t =>
    obtain ⟨hv, hany, hbegin⟩ := h
    have hget : getNextChar (textOf [t] ++ it') = some (t, it') := by
      rw [textOf_cons, List.append_assoc]
      exact getNextChar_text hv it'
    apply Option.bind_eq_some_iff.2 ⟨_, hget, ?_⟩
    obtain ⟨c, e⟩ := t
    cases e with
    | true => rfl
    | false =>
      have h46 : c ≠ 46 := fun hc => hany (hc ▸ rfl)
      have h91 : c ≠ 91 := fun hc => hbegin (hc ▸ rfl)
      dsimp only
      rw [if_neg Bool.false_ne_true, if_neg h46, if_neg h91]
      rfl
  | any => rfl
  | cls reversed first ps =>
    have hgroup : parseGroup (textOf (ItemBody.cls reversed first ps).tokens ++ it') =
        some ((reversed, (first :: ps).map ClassPart.item), it') :=
      parseGroup_eq_some.2 ⟨first, ps, h, rfl, rfl⟩
    exact Option.bind_eq_some_iff.2 ⟨_, hgroup, rfl⟩

lemma produceElement_eq_some {x : CRegExpElement Int8} : produceElement it = some (x, it') ↔
    ∃ i : Item, i.Shape ∧ i.Read ∧ (i.suffix = .none → Ends it') ∧ it = textOf i.tokens ++ it' ∧
      x = i.element (wrap ∘ value) := by
  constructor
  · intro h
    obtain ⟨⟨body, it₁⟩, hbody, h⟩ := Option.bind_eq_some_iff.1 h
    obtain ⟨⟨m, it₂⟩, hmodifier, h⟩ := Option.bind_eq_some_iff.1 h
    cases h
    obtain ⟨b, hb, rfl, rfl⟩ := produceElementBody_sound hbody
    obtain ⟨y, hy, hread, hends, rfl, rfl⟩ := produceElementModifier_sound hmodifier
    refine ⟨⟨b, y⟩, ⟨hb, hy⟩, hread, hends, ?_, rfl⟩
    rw [Item.tokens, textOf_append, List.append_assoc]
  · rintro ⟨⟨b, y⟩, ⟨hb, hy⟩, hread, hends, rfl, rfl⟩
    rw [Item.tokens, textOf_append, List.append_assoc]
    refine Option.bind_eq_some_iff.2 ⟨_, produceElementBody_complete hb, ?_⟩
    exact Option.bind_eq_some_iff.2 ⟨_, produceElementModifier_complete hy hread hends, rfl⟩

lemma ends_iff {ts : List GeneralChar} (hv : ∀ t ∈ ts, t.Valid) : Ends (textOf ts) ↔ ¬Suffix.Opens ts := by
  cases ts with
  | nil =>
    refine iff_of_true (Or.inl rfl) ?_
    rintro ⟨t, ht, -⟩
    exact Option.not_mem_none t ht
  | cons t ts =>
    have hget : getNextChar (textOf (t :: ts)) = some (t, textOf ts) := by
      rw [textOf_cons]
      exact getNextChar_text (hv t List.mem_cons_self) _
    constructor
    · rintro (hnil | ⟨u, it, hget', hu⟩)
      · rw [hnil] at hget
        cases hget
      · cases hget.symm.trans hget'
        rintro ⟨u, hm, ho⟩
        cases hm
        exact hu ho
    · exact fun ho => Or.inr ⟨t, _, hget, fun hm => ho ⟨t, rfl, hm⟩⟩

section Root

variable {elements elements' : List (CRegExpElement Int8)}

def codeElement (i : Item) : CRegExpElement Int8 := i.element (wrap ∘ value)

lemma rootParse_char {x : CRegExpElement Int8} (h : produceElement it = some (x, it')) :
    rootParse elements it = rootParse (elements ++ [x]) it' := by
  have hne : it ≠ [] := by
    rintro rfl
    cases h
  rw [rootParse.eq_def, if_neg hne]
  split
  · next hn =>
    rw [hn] at h
    cases h
  · next hx =>
    rw [h] at hx
    cases hx
    rfl

lemma rootParse_sound (h : rootParse elements it = (elements', true)) :
    ∃ items, Spells it items ∧ (∀ i ∈ items, i.Read) ∧ elements' = elements ++ items.map codeElement := by
  fun_induction rootParse elements it with
  | case1 elements =>
    cases h
    exact ⟨[], ⟨trivial, rfl⟩, fun i hi => absurd hi List.not_mem_nil, (List.append_nil _).symm⟩
  | case2 => cases h
  | case3 elements it hne x it₁ hx ih =>
    obtain ⟨items, ⟨hshape, rfl⟩, hread, rfl⟩ := ih h
    obtain ⟨i, hi, hr, hends, rfl, rfl⟩ := produceElement_eq_some.1 hx
    refine ⟨i :: items, ⟨⟨hi, fun hn => ?_, hshape⟩, ?_⟩, List.forall_mem_cons.2 ⟨hr, hread⟩, ?_⟩
    · exact (ends_iff (ruleTokens_valid hshape)).1 (hends hn)
    · exact textOf_append _ _
    · rw [List.append_assoc]
      rfl

lemma rootParse_complete {items : List Item} (h : Spells it items) (hread : ∀ i ∈ items, i.Read) :
    rootParse elements it = (elements ++ items.map codeElement, true) := by
  induction items generalizing it elements with
  | nil =>
    obtain ⟨-, rfl⟩ := h
    have hnil : textOf (ruleTokens []) = [] := rfl
    rw [rootParse.eq_def, if_pos hnil, List.map_nil, List.append_nil]
  | cons i items ih =>
    obtain ⟨⟨hi, hends, hshape⟩, rfl⟩ := h
    obtain ⟨hr, hread⟩ := List.forall_mem_cons.1 hread
    have hx : produceElement (textOf (ruleTokens (i :: items))) =
        some (codeElement i, textOf (ruleTokens items)) := by
      apply produceElement_eq_some.2 ⟨i, hi, hr, fun hn => ?_, textOf_append _ _, rfl⟩
      exact (ends_iff (ruleTokens_valid hshape)).2 (hends hn)
    rw [rootParse_char hx, ih ⟨hshape, rfl⟩ hread, List.append_assoc]
    rfl

end Root

lemma parse_eq_some {rule : List Int8} {elements : List (CRegExpElement Int8)} : parse rule = some elements ↔
    ∃ items, Spells rule items ∧ (∀ i ∈ items, i.Read) ∧ elements = items.map codeElement := by
  unfold parse
  constructor
  · intro h
    split_ifs at h with hok
    cases h
    obtain ⟨items, hspells, hread, hel⟩ := rootParse_sound (Prod.ext rfl hok)
    exact ⟨items, hspells, hread, hel⟩
  · rintro ⟨items, hspells, hread, rfl⟩
    rw [rootParse_complete hspells hread]
    rfl

section Bounds

def Meets (rule : List Int8) : Prop :=
  (∀ elements, parse rule = some elements ↔
    ∃ items, Spells rule items ∧ (∀ i ∈ items, i.InGrammar) ∧ elements = items.map (Item.element value)) ∧
  ∀ elements, parse rule = some elements → ∀ x ∈ elements, x.Proper

lemma value_nonneg (ds : List (Fin 10)) : 0 ≤ value ds := by
  have hfrom (n : ℤ) (hn : 0 ≤ n) : 0 ≤ ds.foldl (fun n d => n * 10 + (d : ℤ)) n := by
    induction ds generalizing n with
    | nil => exact hn
    | cons d ds ih => exact ih _ (by positivity)
  exact hfrom 0 le_rfl

lemma wrap_eq_self {n : ℤ} (hn : 0 ≤ n) : wrap n = n ↔ n < 2 ^ 31 := by
  constructor
  · intro h
    have hlt := Int.bmod_lt (x := n) (m := 2 ^ 32) (by norm_num)
    rw [← wrap, h] at hlt
    norm_num at hlt ⊢
    omega
  · intro h
    apply Int.bmod_eq_of_le <;> norm_num at h ⊢ <;> omega

lemma inRange_iff {x : Suffix} (h : x.Ordered value) : (x.Ordered (wrap ∘ value) ∧
    x.modifier (wrap ∘ value) = x.modifier value ∧ 0 ≤ (x.modifier (wrap ∘ value)).minimum ∧
      (x.modifier (wrap ∘ value)).minimum ≤ (x.modifier (wrap ∘ value)).maximum) ↔ x.InRange := by
  cases x with
  | none | option | plus | star => exact iff_of_true ⟨trivial, rfl, by decide⟩ trivial
  | range ns upper =>
    have hn := value_nonneg ns
    cases upper with
    | none =>
      apply Iff.trans ?_ (wrap_eq_self hn)
      constructor
      · exact fun h => congrArg EleModifier.minimum h.2.1
      · intro hw
        have hmod : (Suffix.range ns none).modifier (wrap ∘ value) = ⟨value ns, value ns⟩ :=
          congrArg (fun n => EleModifier.mk n n) hw
        rw [hmod]
        exact ⟨trivial, rfl, hn, le_rfl⟩
    | some ms =>
      have hms := value_nonneg ms
      by_cases hm : ms = []
      · subst hm
        constructor
        · rintro ⟨-, hmod, -, hle⟩
          rw [hmod] at hle
          exact hle
        · intro hle
          have hmax : value ns ≤ 10000 := hle
          have hw : wrap (value ns) = value ns := (wrap_eq_self hn).2 (by omega)
          have hmod : (Suffix.range ns (some [])).modifier (wrap ∘ value) = ⟨value ns, maxCount⟩ :=
            congrArg (fun n => EleModifier.mk n maxCount) hw
          rw [hmod]
          exact ⟨fun hm => absurd rfl hm, rfl, hn, hle⟩
      · have hrange : (Suffix.range ns (some ms)).InRange ↔ value ms < 2 ^ 31 := by
          rw [Suffix.InRange, if_neg hm]
        have hle := h hm
        simp only [hrange, Suffix.modifier, if_neg hm, EleModifier.mk.injEq, Function.comp_apply]
        constructor
        · exact fun h => (wrap_eq_self hms).1 h.2.1.2
        · intro hlt
          have hwm := (wrap_eq_self hms).2 hlt
          have hwn := (wrap_eq_self hn).2 (hle.trans_lt hlt)
          rw [hwn, hwm]
          refine ⟨fun hm => ?_, ⟨rfl, rfl⟩, hn, hle⟩
          rw [Function.comp_apply, Function.comp_apply, hwn, hwm]
          exact hle

lemma modifier_element (number : List (Fin 10) → ℤ) (i : Item) :
    (i.element number).modifier = i.suffix.modifier number := by
  obtain ⟨b, y⟩ := i
  cases b <;> rfl

lemma good_iff {i : Item} (h : i.InGrammar) :
    (i.Read ∧ codeElement i = i.element value ∧ (codeElement i).Proper) ↔ i.suffix.InRange := by
  apply Iff.trans ?_ (inRange_iff h.2.2)
  apply and_congr_right
  intro hr
  rw [CRegExpElement.Proper, codeElement, modifier_element]
  apply and_congr_left
  intro hp
  constructor
  · intro he
    rw [← modifier_element, ← modifier_element, he]
  · exact fun hm => congrArg (setModifier · i.body.body) hm

end Bounds

section Main

/-- Every item is one of the grammar with its bounds in range, or the parser refuses what the grammar does not have. -/
def ReadRight (rule : List Int8) : Prop := ∀ items, Spells rule items →
  (∀ i ∈ items, i.InGrammar ∧ i.suffix.InRange) ∨ (∃ i ∈ items, ¬i.Read) ∧ ∃ i ∈ items, ¬i.InGrammar

variable {rule : List Int8} {items : List Item}

lemma ReadRight.good (h : ReadRight rule) (hspells : Spells rule items)
    (hitems : (∀ i ∈ items, i.Read) ∨ ∀ i ∈ items, i.InGrammar) : ∀ i ∈ items,
      i.InGrammar ∧ i.Read ∧ codeElement i = i.element value ∧ (codeElement i).Proper := by
  rcases h items hspells with hg | ⟨⟨i, hi, hr⟩, j, hj, hg⟩
  · exact fun i hi => ⟨(hg i hi).1, (good_iff (hg i hi).1).2 (hg i hi).2⟩
  · rcases hitems with h | h
    · exact absurd (h i hi) hr
    · exact absurd (h j hj) hg

lemma ReadRight.meets (h : ReadRight rule) : Meets rule := by
  constructor
  · intro elements
    rw [parse_eq_some]
    constructor
    · rintro ⟨items, hspells, hread, rfl⟩
      have hg := h.good hspells (Or.inl hread)
      exact ⟨items, hspells, fun i hi => (hg i hi).1, List.map_congr_left fun i hi => (hg i hi).2.2.1⟩
    · rintro ⟨items, hspells, hgrammar, rfl⟩
      have hg := h.good hspells (Or.inr hgrammar)
      exact ⟨items, hspells, fun i hi => (hg i hi).2.1, List.map_congr_left fun i hi => (hg i hi).2.2.1.symm⟩
  · intro elements hparse x hx
    obtain ⟨items, hspells, hread, rfl⟩ := parse_eq_some.1 hparse
    obtain ⟨i, hi, rfl⟩ := List.mem_map.1 hx
    exact (h.good hspells (Or.inl hread) i hi).2.2.2

lemma Meets.readRight (h : Meets rule) : ReadRight rule := by
  obtain ⟨haccepts, hproper⟩ := h
  intro items hspells
  by_cases hread : ∀ i ∈ items, i.Read
  · have hparse := parse_eq_some.2 ⟨items, hspells, hread, rfl⟩
    obtain ⟨items', hspells', hgrammar, hel⟩ := (haccepts _).1 hparse
    obtain rfl := hspells'.unique hspells
    refine Or.inl fun i hi => ⟨hgrammar i hi, (good_iff (hgrammar i hi)).1 ⟨hread i hi, ?_, ?_⟩⟩
    · exact List.map_inj_left.1 hel i hi
    · exact hproper _ hparse _ (List.mem_map_of_mem hi)
  · refine Or.inr ⟨by push Not at hread; exact hread, ?_⟩
    by_contra! hgrammar
    obtain ⟨items', hspells', hread', -⟩ := parse_eq_some.1 ((haccepts _).2 ⟨items, hspells, hgrammar, rfl⟩)
    obtain rfl := hspells'.unique hspells
    exact hread hread'

theorem parse_meets_iff (rule : List Int8) : Meets rule ↔ ReadRight rule := ⟨Meets.readRight, ReadRight.meets⟩

theorem parse_meets_fails : ¬∀ rule, Meets rule := by
  intro h
  let i : Item := ⟨.char ⟨97, false⟩, .range [] none⟩
  have hspells : Spells [97, 92, 123, 92, 125] [i] :=
    ⟨⟨⟨⟨Or.inr (by decide), by decide, by decide⟩, trivial⟩, Suffix.noConfusion, trivial⟩, rfl⟩
  have hparse := parse_eq_some.2 ⟨[i], hspells, List.forall_mem_singleton.2 trivial, rfl⟩
  obtain ⟨items, hspells', hgrammar, -⟩ := ((h _).1 _).1 hparse
  obtain rfl := hspells'.unique hspells
  exact (hgrammar i List.mem_cons_self).2.1 rfl

end Main

end CRegExpParser

end Xframe.Comserv
