import Xframe.Comserv.RegExpParser
import Xframe.Comserv.RegExpLanguage

/-! The syntax of a rule, the text of a syntax tree and the element it stands for. An item takes the modifier
that begins behind it, so no text has two trees. -/

namespace Xframe.Comserv

open CRegExpParser

def textOf (tokens : List GeneralChar) : List Int8 := tokens.flatMap GeneralChar.text

lemma textOf_cons (t : GeneralChar) (ts : List GeneralChar) : textOf (t :: ts) = t.text ++ textOf ts :=
  List.flatMap_cons

lemma textOf_append (ts us : List GeneralChar) : textOf (ts ++ us) = textOf ts ++ textOf us :=
  List.flatMap_append

lemma textOf_inj {ts us : List GeneralChar} (ht : ∀ t ∈ ts, t.Valid) (hu : ∀ u ∈ us, u.Valid)
    (h : textOf ts = textOf us) : ts = us := by
  induction ts generalizing us with
  | nil =>
    cases us with
    | nil => rfl
    | cons u us =>
      have hg := congrArg getNextChar h
      rw [textOf_cons, getNextChar_text (hu u List.mem_cons_self)] at hg
      cases hg
  | cons t ts ih =>
    have hg := congrArg getNextChar h
    rw [textOf_cons, getNextChar_text (ht t List.mem_cons_self)] at hg
    cases us with
    | nil => cases hg
    | cons u us =>
      rw [textOf_cons, getNextChar_text (hu u List.mem_cons_self)] at hg
      obtain ⟨rfl, hrest⟩ := Prod.mk.inj (Option.some.inj hg)
      congr 1
      exact ih (fun t hm => ht t (List.mem_cons_of_mem _ hm)) (fun u hm => hu u (List.mem_cons_of_mem _ hm)) hrest

structure ClassPart where
  begins : GeneralChar
  ends : Option GeneralChar

namespace ClassPart

def rest : Option GeneralChar → List GeneralChar
  | none => []
  | some u => [spliteChar, u]

def tokens (p : ClassPart) : List GeneralChar := p.begins :: rest p.ends

def item (p : ClassPart) : CGroupItem Int8 := ⟨p.begins.character, (p.ends.getD p.begins).character⟩

def Plain (t : GeneralChar) : Prop := t.Valid ∧ t ≠ finChar ∧ t ≠ spliteChar

def Over (begins : GeneralChar → Prop) (p : ClassPart) : Prop := begins p.begins ∧ ∀ u ∈ p.ends, Plain u

/-- What the parser takes first: in a class that is not reversed, also `-`. -/
def First (reversed : Bool) (t : GeneralChar) : Prop :=
  if reversed then Plain t else t.Valid ∧ t ≠ finChar ∧ t ≠ reverseChar

end ClassPart

inductive ItemBody where
  | char (t : GeneralChar)
  | any
  | cls (reversed : Bool) (first : ClassPart) (parts : List ClassPart)

namespace ItemBody

def anyChar : GeneralChar := ⟨46, false⟩

def beginChar : GeneralChar := ⟨91, false⟩

def mark (reversed : Bool) : List GeneralChar := if reversed then [reverseChar] else []

def tokens : ItemBody → List GeneralChar
  | .char t => [t]
  | .any => [anyChar]
  | .cls reversed first parts =>
    beginChar :: (mark reversed ++ (first.tokens ++ (parts.flatMap ClassPart.tokens ++ [finChar])))

def body : ItemBody → Body
  | .char t => .exact t.character
  | .any => .anyOne
  | .cls reversed first parts => .group reversed (first.item :: parts.map ClassPart.item)

def Shape : ItemBody → Prop
  | .char t => t.Valid ∧ t ≠ anyChar ∧ t ≠ beginChar
  | .any => True
  | .cls reversed first parts => first.Over (ClassPart.First reversed) ∧ ∀ p ∈ parts, p.Over ClassPart.Plain

def InGrammar : ItemBody → Prop
  | .cls _ first _ => first.begins ≠ spliteChar
  | _ => True

end ItemBody

def digit (d : Fin 10) : GeneralChar := ⟨Int8.ofNat (48 + d), false⟩

def value (ds : List (Fin 10)) : ℤ := ds.foldl (fun n d => n * 10 + (d : ℤ)) 0

inductive Suffix where
  | none
  | option
  | plus
  | star
  | range (lower : List (Fin 10)) (upper : Option (List (Fin 10)))

namespace Suffix

def optionChar : GeneralChar := ⟨63, false⟩

def plusChar : GeneralChar := ⟨43, false⟩

def starChar : GeneralChar := ⟨42, false⟩

def openChar : GeneralChar := ⟨123, true⟩

def closeChar : GeneralChar := ⟨125, true⟩

def comma : GeneralChar := ⟨44, false⟩

def upperTokens : Option (List (Fin 10)) → List GeneralChar
  | .none => [closeChar]
  | .some ms => comma :: (ms.map digit ++ [closeChar])

def tokens : Suffix → List GeneralChar
  | .none => []
  | .option => [optionChar]
  | .plus => [plusChar]
  | .star => [starChar]
  | .range ns upper => openChar :: (ns.map digit ++ upperTokens upper)

def modifier (number : List (Fin 10) → ℤ) : Suffix → EleModifier
  | .none => ⟨1, 1⟩
  | .option => ⟨0, 1⟩
  | .plus => ⟨1, maxCount⟩
  | .star => ⟨0, maxCount⟩
  | .range ns .none => ⟨number ns, number ns⟩
  | .range ns (.some ms) => ⟨number ns, if ms = [] then maxCount else number ms⟩

def Shape : Suffix → Prop
  | .range ns (.some _) => ns ≠ []
  | _ => True

def Ordered (number : List (Fin 10) → ℤ) : Suffix → Prop
  | .range ns (.some ms) => ms ≠ [] → number ns ≤ number ms
  | _ => True

def HasNumber : Suffix → Prop
  | .range ns _ => ns ≠ []
  | _ => True

/-- The numbers are `int`s, and a lower bound alone does not exceed the upper bound that is set for it. -/
def InRange : Suffix → Prop
  | .range ns .none => value ns < 2 ^ 31
  | .range ns (.some ms) => if ms = [] then value ns ≤ maxCount else value ms < 2 ^ 31
  | _ => True

def openers : List GeneralChar := [optionChar, plusChar, starChar, openChar]

def Opens (ts : List GeneralChar) : Prop := ∃ t ∈ ts.head?, t ∈ openers

end Suffix

structure Item where
  body : ItemBody
  suffix : Suffix

namespace Item

def tokens (i : Item) : List GeneralChar := i.body.tokens ++ i.suffix.tokens

def Shape (i : Item) : Prop := i.body.Shape ∧ i.suffix.Shape

def InGrammar (i : Item) : Prop := i.body.InGrammar ∧ i.suffix.HasNumber ∧ i.suffix.Ordered value

def Read (i : Item) : Prop := i.suffix.Ordered (wrap ∘ value)

def element (number : List (Fin 10) → ℤ) (i : Item) : CRegExpElement Int8 :=
  setModifier (i.suffix.modifier number) i.body.body

end Item

def ruleTokens (items : List Item) : List GeneralChar := items.flatMap Item.tokens

def RuleShape : List Item → Prop
  | [] => True
  | i :: items => i.Shape ∧ (i.suffix = .none → ¬Suffix.Opens (ruleTokens items)) ∧ RuleShape items

def Spells (rule : List Int8) (items : List Item) : Prop := RuleShape items ∧ textOf (ruleTokens items) = rule

section Valid

def ClassPart.Inner (t : GeneralChar) : Prop := t.Valid ∧ t ≠ finChar

lemma ClassPart.First.inner {reversed : Bool} {t : GeneralChar} (h : ClassPart.First reversed t) :
    ClassPart.Inner t := by
  unfold ClassPart.First at h
  split_ifs at h <;> exact ⟨h.1, h.2.1⟩

lemma ClassPart.Plain.inner {t : GeneralChar} (h : ClassPart.Plain t) : ClassPart.Inner t := ⟨h.1, h.2.1⟩

lemma ClassPart.tokens_inner {begins : GeneralChar → Prop} (hb : ∀ t, begins t → ClassPart.Inner t) {p : ClassPart}
    (hp : p.Over begins) : ∀ t ∈ p.tokens, ClassPart.Inner t := by
  obtain ⟨b, ends⟩ := p
  refine List.forall_mem_cons.2 ⟨hb b hp.1, ?_⟩
  cases ends with
  | none => exact fun t ht => absurd ht List.not_mem_nil
  | some u =>
    refine List.forall_mem_cons.2 ⟨⟨Or.inr (by decide), by decide⟩, ?_⟩
    exact List.forall_mem_singleton.2 (hp.2 u rfl).inner

def ItemBody.inner (reversed : Bool) (parts : List ClassPart) : List GeneralChar :=
  mark reversed ++ parts.flatMap ClassPart.tokens

lemma ItemBody.cls_tokens (reversed : Bool) (first : ClassPart) (parts : List ClassPart) :
    (cls reversed first parts).tokens = beginChar :: (inner reversed (first :: parts) ++ [finChar]) := by
  simp only [tokens, inner, List.flatMap_cons, List.append_assoc]

lemma ItemBody.inner_inner {reversed : Bool} {first : ClassPart} {parts : List ClassPart}
    (h : (cls reversed first parts).Shape) : ∀ t ∈ inner reversed (first :: parts), ClassPart.Inner t := by
  obtain ⟨hfirst, hparts⟩ := h
  refine List.forall_mem_append.2 ⟨?_, List.forall_mem_append.2 ⟨?_, ?_⟩⟩
  · cases reversed with
    | false => exact fun t ht => absurd ht List.not_mem_nil
    | true => exact List.forall_mem_singleton.2 ⟨Or.inr (by decide), by decide⟩
  · exact ClassPart.tokens_inner (fun t => ClassPart.First.inner) hfirst
  · intro t ht
    obtain ⟨p, hp, ht⟩ := List.mem_flatMap.1 ht
    exact ClassPart.tokens_inner (fun t => ClassPart.Plain.inner) (hparts p hp) t ht

lemma digit_valid (d : Fin 10) : (digit d).Valid := by
  apply Or.inr
  revert d
  decide

lemma ItemBody.tokens_valid {b : ItemBody} (h : b.Shape) : ∀ t ∈ b.tokens, t.Valid := by
  cases b with
  | char u =>
    intro t ht
    obtain rfl := List.mem_singleton.1 ht
    exact h.1
  | any =>
    intro t ht
    obtain rfl := List.mem_singleton.1 ht
    exact Or.inr (by decide)
  | cls reversed first parts =>
    rw [cls_tokens]
    refine List.forall_mem_cons.2 ⟨Or.inr (by decide), List.forall_mem_append.2 ⟨?_, ?_⟩⟩
    · exact fun t ht => (inner_inner h t ht).1
    · exact List.forall_mem_singleton.2 (Or.inr (by decide))

lemma Suffix.tokens_valid (s : Suffix) : ∀ t ∈ s.tokens, t.Valid := by
  have hdigits (ds : List (Fin 10)) : ∀ t ∈ ds.map digit, t.Valid := by
    intro t ht
    obtain ⟨d, -, rfl⟩ := List.mem_map.1 ht
    exact digit_valid d
  cases s with
  | none => exact fun t ht => absurd ht List.not_mem_nil
  | option | plus | star => exact List.forall_mem_singleton.2 (Or.inr (by decide))
  | range ns upper =>
    refine List.forall_mem_cons.2 ⟨Or.inl rfl, List.forall_mem_append.2 ⟨hdigits ns, ?_⟩⟩
    cases upper with
    | none => exact List.forall_mem_singleton.2 (Or.inl rfl)
    | some ms =>
      refine List.forall_mem_cons.2 ⟨Or.inr (by decide), List.forall_mem_append.2 ⟨hdigits ms, ?_⟩⟩
      exact List.forall_mem_singleton.2 (Or.inl rfl)

lemma Item.tokens_valid {i : Item} (h : i.Shape) : ∀ t ∈ i.tokens, t.Valid :=
  List.forall_mem_append.2 ⟨ItemBody.tokens_valid h.1, Suffix.tokens_valid i.suffix⟩

lemma ruleTokens_valid {items : List Item} (h : RuleShape items) : ∀ t ∈ ruleTokens items, t.Valid := by
  induction items with
  | nil => exact fun t ht => absurd ht List.not_mem_nil
  | cons i items ih =>
    obtain ⟨hi, -, hrest⟩ := h
    exact List.forall_mem_append.2 ⟨Item.tokens_valid hi, ih hrest⟩

end Valid

section Unique

variable {ts us : List GeneralChar}

lemma ClassPart.cancel {p q : ClassPart} (ht : spliteChar ∉ ts.head?) (hu : spliteChar ∉ us.head?)
    (h : p.tokens ++ ts = q.tokens ++ us) : p = q ∧ ts = us := by
  obtain ⟨b, ends⟩ := p
  obtain ⟨c, ends'⟩ := q
  obtain ⟨rfl, hends⟩ := List.cons.inj h
  cases ends with
  | none =>
    cases ends' with
    | none => exact ⟨rfl, hends⟩
    | some v =>
      obtain rfl : ts = spliteChar :: v :: us := hends
      exact absurd rfl ht
  | some u =>
    cases ends' with
    | none =>
      obtain rfl : us = spliteChar :: u :: ts := hends.symm
      exact absurd rfl hu
    | some v =>
      obtain ⟨rfl, hrest⟩ := List.cons.inj (List.cons.inj hends).2
      exact ⟨rfl, hrest⟩

lemma ClassPart.head_parts {parts : List ClassPart} (hp : ∀ p ∈ parts, p.Over ClassPart.Plain) :
    spliteChar ∉ (parts.flatMap ClassPart.tokens ++ finChar :: ts).head? := by
  intro h
  cases parts with
  | nil => exact absurd (Option.some.inj h) (by decide)
  | cons p parts => exact (hp p List.mem_cons_self).1.2.2 (Option.some.inj h)

lemma ClassPart.cancel_parts {ps qs : List ClassPart} (hp : ∀ p ∈ ps, p.Over ClassPart.Plain)
    (hq : ∀ q ∈ qs, q.Over ClassPart.Plain)
    (h : ps.flatMap ClassPart.tokens ++ finChar :: ts = qs.flatMap ClassPart.tokens ++ finChar :: us) :
    ps = qs ∧ ts = us := by
  induction ps generalizing qs with
  | nil =>
    cases qs with
    | nil => exact ⟨rfl, (List.cons.inj h).2⟩
    | cons q qs => exact absurd (List.cons.inj h).1.symm (hq q List.mem_cons_self).1.2.1
  | cons p ps ih =>
    cases qs with
    | nil => exact absurd (List.cons.inj h).1 (hp p List.mem_cons_self).1.2.1
    | cons q qs =>
      have hps : ∀ p ∈ ps, p.Over ClassPart.Plain := fun r hr => hp r (List.mem_cons_of_mem p hr)
      have hqs : ∀ q ∈ qs, q.Over ClassPart.Plain := fun r hr => hq r (List.mem_cons_of_mem q hr)
      rw [List.flatMap_cons, List.flatMap_cons, List.append_assoc, List.append_assoc] at h
      obtain ⟨rfl, hparts⟩ := ClassPart.cancel (ClassPart.head_parts hps) (ClassPart.head_parts hqs) h
      obtain ⟨rfl, hrest⟩ := ih hps hqs hparts
      exact ⟨rfl, hrest⟩

lemma ItemBody.cancel_mark {r r' : Bool} {p q : ClassPart} (hp : p.Over (ClassPart.First r))
    (hq : q.Over (ClassPart.First r')) (h : mark r ++ (p.tokens ++ ts) = mark r' ++ (q.tokens ++ us)) :
    r = r' ∧ p.tokens ++ ts = q.tokens ++ us := by
  cases r with
  | false =>
    cases r' with
    | false => exact ⟨rfl, h⟩
    | true => exact absurd (List.cons.inj h).1 hp.1.2.2
  | true =>
    cases r' with
    | false => exact absurd (List.cons.inj h).1.symm hq.1.2.2
    | true => exact ⟨rfl, (List.cons.inj h).2⟩

lemma ItemBody.cancel {b c : ItemBody} (hb : b.Shape) (hc : c.Shape) (h : b.tokens ++ ts = c.tokens ++ us) :
    b = c ∧ ts = us := by
  cases b with
  | char t =>
    obtain ⟨-, hany, hbegin⟩ := hb
    cases c with
    | char u =>
      obtain ⟨rfl, hrest⟩ := List.cons.inj h
      exact ⟨rfl, hrest⟩
    | any => exact absurd (List.cons.inj h).1 hany
    | cls reversed first parts => exact absurd (List.cons.inj h).1 hbegin
  | any =>
    cases c with
    | char u => exact absurd (List.cons.inj h).1.symm hc.2.1
    | any => exact ⟨rfl, (List.cons.inj h).2⟩
    | cls reversed first parts => exact absurd (List.cons.inj h).1 (by decide)
  | cls reversed first parts =>
    cases c with
    | char u => exact absurd (List.cons.inj h).1.symm hc.2.2
    | any => exact absurd (List.cons.inj h).1 (by decide)
    | cls reversed' first' parts' =>
      simp only [tokens, List.cons_append, List.append_assoc, List.nil_append, List.cons.injEq, true_and] at h
      obtain ⟨rfl, hfirst⟩ := cancel_mark hb.1 hc.1 h
      obtain ⟨rfl, hparts⟩ := ClassPart.cancel (ClassPart.head_parts hb.2) (ClassPart.head_parts hc.2) hfirst
      obtain ⟨rfl, hrest⟩ := ClassPart.cancel_parts hb.2 hc.2 hparts
      exact ⟨rfl, hrest⟩

lemma digit_inj : Function.Injective digit := by
  intro d e
  revert d e
  decide

lemma cancel_digits {ds es : List (Fin 10)} {t u : GeneralChar} (ht : ∀ d, digit d ≠ t) (hu : ∀ d, digit d ≠ u)
    (h : ds.map digit ++ t :: ts = es.map digit ++ u :: us) : ds = es ∧ t = u ∧ ts = us := by
  induction ds generalizing es with
  | nil =>
    cases es with
    | nil => exact ⟨rfl, List.cons.inj h⟩
    | cons e es => exact absurd (List.cons.inj h).1.symm (ht e)
  | cons d ds ih =>
    cases es with
    | nil => exact absurd (List.cons.inj h).1 (hu d)
    | cons e es =>
      obtain ⟨hd, hds⟩ := List.cons.inj h
      obtain rfl := digit_inj hd
      obtain ⟨rfl, hrest⟩ := ih hds
      exact ⟨rfl, hrest⟩

lemma digit_ne_close (d : Fin 10) : digit d ≠ Suffix.closeChar := by
  revert d
  decide

lemma digit_ne_comma (d : Fin 10) : digit d ≠ Suffix.comma := by
  revert d
  decide

lemma Suffix.cancel_range {ns ns' : List (Fin 10)} {upper upper' : Option (List (Fin 10))}
    (h : ns.map digit ++ (upperTokens upper ++ ts) = ns'.map digit ++ (upperTokens upper' ++ us)) :
    ns = ns' ∧ upper = upper' ∧ ts = us := by
  cases upper with
  | none =>
    cases upper' with
    | none =>
      obtain ⟨rfl, -, hrest⟩ := cancel_digits digit_ne_close digit_ne_close h
      exact ⟨rfl, rfl, hrest⟩
    | some ms' =>
      obtain ⟨-, h, -⟩ := cancel_digits digit_ne_close digit_ne_comma h
      exact absurd h (by decide)
  | some ms =>
    cases upper' with
    | none =>
      obtain ⟨-, h, -⟩ := cancel_digits digit_ne_comma digit_ne_close h
      exact absurd h (by decide)
    | some ms' =>
      simp only [upperTokens, List.cons_append, List.append_assoc, List.nil_append] at h
      obtain ⟨rfl, -, hupper⟩ := cancel_digits digit_ne_comma digit_ne_comma h
      obtain ⟨rfl, -, hrest⟩ := cancel_digits digit_ne_close digit_ne_close hupper
      exact ⟨rfl, rfl, hrest⟩

lemma Suffix.opens_tokens {s : Suffix} (h : s ≠ .none) : Opens (s.tokens ++ ts) := by
  cases s with
  | none => exact absurd rfl h
  | option | plus | star => exact ⟨_, rfl, by decide⟩
  | range ns upper => exact ⟨openChar, rfl, by decide⟩

lemma Suffix.cancel {s s' : Suffix} (hs : s = .none → ¬Opens ts) (hs' : s' = .none → ¬Opens us)
    (h : s.tokens ++ ts = s'.tokens ++ us) : s = s' ∧ ts = us := by
  cases s with
  | none =>
    by_cases hn : s' = .none
    · obtain rfl := hn
      exact ⟨rfl, h⟩
    · have ho : Opens (s'.tokens ++ us) := opens_tokens hn
      rw [← h] at ho
      exact absurd ho (hs rfl)
  | option =>
    cases s' with
    | none => exact absurd ⟨_, congrArg List.head? h.symm, by decide⟩ (hs' rfl)
    | option => exact ⟨rfl, (List.cons.inj h).2⟩
    | plus | star | range => exact absurd (List.cons.inj h).1 (by decide)
  | plus =>
    cases s' with
    | none => exact absurd ⟨_, congrArg List.head? h.symm, by decide⟩ (hs' rfl)
    | plus => exact ⟨rfl, (List.cons.inj h).2⟩
    | option | star | range => exact absurd (List.cons.inj h).1 (by decide)
  | star =>
    cases s' with
    | none => exact absurd ⟨_, congrArg List.head? h.symm, by decide⟩ (hs' rfl)
    | star => exact ⟨rfl, (List.cons.inj h).2⟩
    | option | plus | range => exact absurd (List.cons.inj h).1 (by decide)
  | range ns upper =>
    cases s' with
    | none => exact absurd ⟨_, congrArg List.head? h.symm, by decide⟩ (hs' rfl)
    | range ns' upper' =>
      simp only [tokens, List.cons_append, List.append_assoc, List.cons.injEq, true_and] at h
      obtain ⟨rfl, rfl, hrest⟩ := cancel_range h
      exact ⟨rfl, hrest⟩
    | option | plus | star => exact absurd (List.cons.inj h).1 (by decide)

lemma ItemBody.tokens_ne_nil (b : ItemBody) : b.tokens ≠ [] := by
  cases b <;> exact List.cons_ne_nil _ _

lemma ruleTokens_inj {items items' : List Item} (h : RuleShape items) (h' : RuleShape items')
    (heq : ruleTokens items = ruleTokens items') : items = items' := by
  induction items generalizing items' with
  | nil =>
    cases items' with
    | nil => rfl
    | cons i' items' =>
      have hnil := (List.append_eq_nil_iff.1 heq.symm).1
      exact absurd (List.append_eq_nil_iff.1 hnil).1 (ItemBody.tokens_ne_nil _)
  | cons i items ih =>
    cases items' with
    | nil =>
      have hnil := (List.append_eq_nil_iff.1 heq).1
      exact absurd (List.append_eq_nil_iff.1 hnil).1 (ItemBody.tokens_ne_nil _)
    | cons i' items' =>
      obtain ⟨b, s⟩ := i
      obtain ⟨b', s'⟩ := i'
      obtain ⟨hi, hends, hrest⟩ := h
      obtain ⟨hi', hends', hrest'⟩ := h'
      simp only [ruleTokens, List.flatMap_cons, Item.tokens, List.append_assoc] at heq
      obtain ⟨rfl, hsuffix⟩ := ItemBody.cancel hi.1 hi'.1 heq
      obtain ⟨rfl, hitems⟩ := Suffix.cancel hends hends' hsuffix
      rw [ih hrest hrest' hitems]

lemma Spells.unique {rule : List Int8} {items items' : List Item} (h : Spells rule items)
    (h' : Spells rule items') : items = items' := by
  apply ruleTokens_inj h.1 h'.1
  exact textOf_inj (ruleTokens_valid h.1) (ruleTokens_valid h'.1) (h.2.trans h'.2.symm)

end Unique

end Xframe.Comserv
