import Xframe.Comserv.RegExpRules
import Xframe.Lib.Refine

/-! `CRegExp`: the rule is parsed at the first match and the elements are appended to the object's. A later
`initialize` replaces the rule alone, so the elements are those of the first rule that parsed, behind what
refused rules have left. -/

namespace Xframe.Comserv

open CRegExpElement CRegExpParser Lib

structure CRegExp where
  rootElement : List (CRegExpElement Int8)
  rule : List Int8
  parsed : Bool

namespace CRegExp

inductive Fault where
  | badRule
  | notInitialized
  deriving DecidableEq

/-- A string, and what is read in it and behind its end. -/
structure Text where
  string : List Int8
  read : ℤ → Int8
  reads : ReadsString read string

inductive Call where
  | initializeRule (rule : List Int8)
  | matchObject (object : Text)

inductive Outcome where
  | done
  | returned (found : Option Bool)
  | threw (fault : Fault)

def new : CRegExp := ⟨[], [], false⟩

def ofRule (rule : List Int8) : Option CRegExp := if rule = [] then none else some ⟨[], rule, false⟩

def initializeRule (x : CRegExp) (rule : List Int8) : Outcome × CRegExp :=
  if rule = [] then (.threw .badRule, x) else (.done, { x with rule := rule })

/-- The elements before the one that is refused stay. -/
def parse (x : CRegExp) : Option Fault × CRegExp :=
  if x.rule = [] then (some .notInitialized, x)
  else
    match rootParse x.rootElement x.rule with
    | (elements, true) => (none, { x with rootElement := elements })
    | (elements, false) => (some .badRule, { x with rootElement := elements })

def matchRoot (x : CRegExp) (object : Text) : Outcome :=
  .returned (rootMatch x.rootElement (fun j => some (object.read j)) object.string.length)

def matchObject (x : CRegExp) (object : Text) : Outcome × CRegExp :=
  if x.parsed then (x.matchRoot object, x)
  else
    match x.parse with
    | (some fault, y) => (.threw fault, y)
    | (none, y) => (y.matchRoot object, { y with parsed := true })

def call (x : CRegExp) : Call → Outcome × CRegExp
  | .initializeRule rule => x.initializeRule rule
  | .matchObject object => x.matchObject object

def latest (rule : List Int8) : Call → List Int8
  | .initializeRule rule' => if rule' = [] then rule else rule'
  | .matchObject _ => rule

def Written (rule : List Int8) (items : List Item) : Prop := Spells rule items ∧ ∀ i ∈ items, i.InGrammar

def Decides (rule : List Int8) (object : Text) (outcome : Outcome) : Prop :=
  (∀ items, Written rule items → ∃ found, outcome = .returned (some found) ∧
    (found = true ↔ Language (items.map (Item.element value)) object.string)) ∧
  ((¬∃ items, Written rule items) → outcome = .threw .badRule)

def step (s : CRegExp × List Int8) (c : Call) : Outcome × CRegExp × List Int8 :=
  ((s.1.call c).1, (s.1.call c).2, latest s.2 c)

def Right (s : CRegExp × List Int8) : Call → Prop
  | .initializeRule _ => True
  | .matchObject object => s.2 ≠ [] → Decides s.2 object (s.1.matchObject object).1

/-- A rule that has parsed is not replaced, and a rule is parsed where a refused one has left nothing. -/
def Careful (s : CRegExp × List Int8) : Call → Prop
  | .initializeRule rule => s.1.parsed = true → rule ≠ [] → rule = s.2
  | .matchObject _ => s.1.parsed = false → s.2 ≠ [] →
      ReadRight s.2 ∧ ((∃ items, Written s.2 items) → s.1.rootElement = [])

section Parse

variable {x : CRegExp} {rule : List Int8} {items : List Item}

def elementsOf (items : List Item) : List (CRegExpElement Int8) := items.map (Item.element value)

lemma elementsOf_proper (h : ReadRight rule) (hitems : Written rule items) : ∀ y ∈ elementsOf items, y.Proper := by
  intro y hy
  obtain ⟨i, hi, rfl⟩ := List.mem_map.1 hy
  obtain ⟨-, -, heq, hproper⟩ := h.good hitems.1 (Or.inr hitems.2) i hi
  exact heq ▸ hproper

lemma match_written (h : ReadRight rule) (hitems : Written rule items) (hrule : rule ≠ []) (object : Text) :
    matchObject ⟨[], rule, false⟩ object =
      (matchRoot ⟨elementsOf items, rule, false⟩ object, ⟨elementsOf items, rule, true⟩) := by
  have hgood := h.good hitems.1 (Or.inr hitems.2)
  have hroot : rootParse [] rule = ([] ++ items.map codeElement, true) :=
    rootParse_complete hitems.1 fun i hi => (hgood i hi).2.1
  have helements : items.map codeElement = elementsOf items :=
    List.map_congr_left fun i hi => (hgood i hi).2.2.1
  have hparse : parse ⟨[], rule, false⟩ = (none, ⟨elementsOf items, rule, false⟩) := by
    rw [parse, if_neg hrule, hroot, List.nil_append, helements]
  rw [matchObject, if_neg Bool.false_ne_true, hparse]

lemma match_refuses (h : ReadRight rule) (hitems : ¬∃ items, Written rule items) (hrule : rule ≠ [])
    (elements : List (CRegExpElement Int8)) (object : Text) :
    ∃ elements', matchObject ⟨elements, rule, false⟩ object = (.threw .badRule, ⟨elements', rule, false⟩) := by
  rw [matchObject, if_neg Bool.false_ne_true, parse, if_neg hrule]
  cases hroot : rootParse elements rule with
  | mk elements' ok =>
    cases ok with
    | false => exact ⟨elements', rfl⟩
    | true =>
      obtain ⟨items, hspells, hread, -⟩ := rootParse_sound hroot
      exact absurd ⟨items, hspells, fun i hi => (h.good hspells (Or.inl hread) i hi).1⟩ hitems

end Parse

def Fresh (s : CRegExp × List Int8) : Prop := s.1.rule = s.2 ∧ (s.1.parsed = true → ∃ items, Written s.2 items ∧
  s.1.rootElement = elementsOf items ∧ ∀ x ∈ s.1.rootElement, x.Proper)

lemma matchRoot_decides {x : CRegExp} {rule : List Int8} {items : List Item} (hitems : Written rule items)
    (helements : x.rootElement = elementsOf items) (hp : ∀ y ∈ x.rootElement, y.Proper)
    (object : Text) : Decides rule object (x.matchRoot object) := by
  obtain ⟨found, hfound, hiff⟩ := rootMatch_language hp object.reads
  refine ⟨fun items' hitems' => ⟨found, congrArg Outcome.returned hfound, ?_⟩, fun hnone => ?_⟩
  · rw [hiff, helements, hitems'.1.unique hitems.1]
    rfl
  · exact absurd ⟨items, hitems⟩ hnone

lemma fresh_init {s : CRegExp × List Int8} (hs : Fresh s) {rule : List Int8} (hc : Careful s (.initializeRule rule)) :
    Fresh (step s (.initializeRule rule)).2 := by
  by_cases hrule : rule = []
  · have hsame : (step s (.initializeRule rule)).2 = s := by
      simp only [step, call, initializeRule, latest, if_pos hrule]
    rw [hsame]
    exact hs
  · have hnext : (step s (.initializeRule rule)).2 = ({ s.1 with rule := rule }, rule) := by
      simp only [step, call, initializeRule, latest, if_neg hrule]
    rw [hnext]
    refine ⟨rfl, fun hp => ?_⟩
    obtain rfl := hc hp hrule
    exact hs.2 hp

lemma fresh_match {s : CRegExp × List Int8} (hs : Fresh s) {object : Text} (hc : Careful s (.matchObject object)) :
    Right s (.matchObject object) ∧ Fresh (step s (.matchObject object)).2 := by
  obtain ⟨⟨elements, rule, parsed⟩, r⟩ := s
  obtain ⟨hr, hparsed⟩ := hs
  obtain rfl : rule = r := hr
  cases parsed with
  | true =>
    obtain ⟨items, hitems, helements, hp⟩ := hparsed rfl
    exact ⟨fun hne => matchRoot_decides hitems helements hp object, rfl, hparsed⟩
  | false =>
    by_cases hrule : rule = []
    · subst hrule
      exact ⟨fun hne => absurd rfl hne, rfl, fun hp => absurd hp Bool.false_ne_true⟩
    · obtain ⟨hread, hleft⟩ := hc rfl hrule
      by_cases hitems : ∃ items, Written rule items
      · obtain rfl := hleft hitems
        obtain ⟨items, hitems⟩ := hitems
        have hp := elementsOf_proper hread hitems
        simp only [Right, step, call, match_written hread hitems hrule]
        exact ⟨fun hne => matchRoot_decides hitems rfl hp object, rfl, fun h => ⟨items, hitems, rfl, hp⟩⟩
      · obtain ⟨elements', hmatch⟩ := match_refuses hread hitems hrule elements object
        simp only [Right, step, call, hmatch]
        refine ⟨fun hne => ⟨fun items h => absurd ⟨items, h⟩ hitems, fun h => rfl⟩, rfl, ?_⟩
        exact fun hp => absurd hp Bool.false_ne_true

def Constructed (x : CRegExp) : Prop := x = new ∨ ∃ rule, ofRule rule = some x

lemma fresh_constructed {x : CRegExp} (hx : Constructed x) : Fresh (x, x.rule) := by
  refine ⟨rfl, fun hp => ?_⟩
  rcases hx with rfl | ⟨rule, hrule⟩
  · cases hp
  · unfold ofRule at hrule
    split_ifs at hrule
    cases hrule
    cases hp

theorem match_right {x : CRegExp} (hx : Constructed x) (calls : List Call) (hc : Along step Careful (x, x.rule) calls) :
    Along step Right (x, x.rule) calls := by
  apply along_of_invariant Fresh ?_ (fresh_constructed hx) calls hc
  intro s c hs hc
  cases c with
  | initializeRule rule => exact ⟨trivial, fresh_init hs hc⟩
  | matchObject object => exact fresh_match hs hc

section Plain

def plainItem (c : Int8) : Item := ⟨.char ⟨c, false⟩, .none⟩

lemma language_plain (cs s : List Int8) : Language (cs.map (CRegExpElement.exact ⟨1, 1⟩)) s ↔ s = cs := by
  induction cs generalizing s with
  | nil =>
    constructor
    · rintro ⟨blocks, rfl, h⟩
      cases h
      rfl
    · rintro rfl
      exact ⟨[], rfl, .nil⟩
  | cons c cs ih =>
    constructor
    · rintro ⟨blocks, rfl, h⟩
      cases h with
      | @cons _ block _ blocks hblock hblocks =>
        obtain ⟨hmin, hmax, hall⟩ := hblock
        have hlen : (block.length : ℤ) = 1 := le_antisymm hmax hmin
        obtain ⟨d, rfl⟩ := List.length_eq_one_iff.1 (Int.ofNat_inj.1 hlen)
        obtain rfl : d = c := hall d List.mem_cons_self
        exact congrArg (d :: ·) ((ih _).1 ⟨blocks, rfl, hblocks⟩)
    · rintro rfl
      obtain ⟨blocks, hflat, h⟩ := (ih cs).2 rfl
      refine ⟨[c] :: blocks, congrArg (c :: ·) hflat, .cons ⟨le_rfl, le_rfl, ?_⟩ h⟩
      exact List.forall_mem_singleton.2 rfl

def text (s : List Int8) : Text where
  string := s
  read i := s.getD i.toNat 0
  reads i h := by simp [h]

end Plain

section Samples

variable {c d : Int8}

def Ordinary (c : Int8) : Prop := c ≠ 92 ∧ c ≠ 46 ∧ c ≠ 91

lemma written_plain (hc : Ordinary c) : Written [c] [plainItem c] := by
  obtain ⟨h92, h46, h91⟩ := hc
  have hshape : (plainItem c).Shape := ⟨⟨Or.inr h92, fun h => h46 (GeneralChar.mk.inj h).1,
    fun h => h91 (GeneralChar.mk.inj h).1⟩, trivial⟩
  refine ⟨⟨⟨hshape, fun h => ?_, trivial⟩, rfl⟩, List.forall_mem_singleton.2 ⟨trivial, trivial, trivial⟩⟩
  rintro ⟨t, ht, -⟩
  exact Option.not_mem_none t ht

lemma readRight_plain (hc : Ordinary c) : ReadRight [c] := by
  intro items hitems
  obtain rfl := hitems.unique (written_plain hc).1
  exact Or.inl (List.forall_mem_singleton.2 ⟨⟨trivial, trivial, trivial⟩, trivial⟩)

theorem match_right_one : Along step Right (new, []) [.initializeRule [98], .initializeRule [97],
    .matchObject (text [97]), .initializeRule []] := by
  apply match_right (Or.inl rfl)
  refine ⟨fun hp => absurd hp Bool.false_ne_true, fun hp => absurd hp Bool.false_ne_true, fun hp hne => ?_,
    fun hp hne => absurd rfl hne, trivial⟩
  exact ⟨readRight_plain ⟨by decide, by decide, by decide⟩, fun h => rfl⟩

lemma not_decides {cs : List Int8} {x : CRegExp} (hd : Ordinary d)
    (hne : cs ≠ [d]) (helements : x.rootElement = cs.map (CRegExpElement.exact ⟨1, 1⟩)) :
    ¬Decides [d] (text [d]) (x.matchRoot (text [d])) := by
  rintro ⟨hdecides, -⟩
  obtain ⟨found, hfound, hiff⟩ := hdecides _ (written_plain hd)
  have hp : ∀ y ∈ x.rootElement, y.Proper := by
    rw [helements]
    intro y hy
    obtain ⟨c, -, rfl⟩ := List.mem_map.1 hy
    exact ⟨zero_le_one, le_rfl⟩
  obtain ⟨found', hfound', hiff'⟩ := rootMatch_language hp (text [d]).reads
  have hsame : found' = found := Option.some.inj (hfound'.symm.trans (Outcome.returned.inj hfound))
  have hin := hiff.2 ((language_plain [d] [d]).2 rfl)
  rw [helements] at hiff'
  exact hne ((language_plain cs [d]).1 (hiff'.1 (hsame.trans hin))).symm

lemma match_plain (hc : Ordinary c) (object : Text) : (matchObject ⟨[], [c], false⟩ object).2 =
    ⟨[c].map (CRegExpElement.exact ⟨1, 1⟩), [c], true⟩ := by
  rw [match_written (readRight_plain hc) (written_plain hc) (List.cons_ne_nil c [])]
  rfl

lemma match_refused (object : Text) : (matchObject ⟨[], [97, 97, 92], false⟩ object).2 =
    ⟨[97].map (CRegExpElement.exact ⟨1, 1⟩), [97, 97, 92], false⟩ := by
  have hroot : rootParse [] [97, 97, 92] = ([CRegExpElement.exact ⟨1, 1⟩ 97], false) := by
    have hfirst : produceElement [97, 97, 92] = some (CRegExpElement.exact ⟨1, 1⟩ 97, [97, 92]) := rfl
    rw [rootParse_char hfirst, rootParse.eq_def]
    rfl
  have hparse : parse ⟨[], [97, 97, 92], false⟩ =
      (some .badRule, ⟨[CRegExpElement.exact ⟨1, 1⟩ 97], [97, 97, 92], false⟩) := by
    rw [parse, if_neg (List.cons_ne_nil _ _), hroot]
  rw [matchObject, if_neg Bool.false_ne_true, hparse]
  rfl

lemma match_left (hc : Ordinary c) (elements : List (CRegExpElement Int8)) (object : Text) :
    (matchObject ⟨elements, [c], false⟩ object).1 =
      matchRoot ⟨elements ++ [c].map (CRegExpElement.exact ⟨1, 1⟩), [c], false⟩ object := by
  have hroot : rootParse elements [c] = (elements ++ [plainItem c].map codeElement, true) :=
    rootParse_complete (written_plain hc).1 (List.forall_mem_singleton.2 trivial)
  rw [matchObject, if_neg Bool.false_ne_true, parse, if_neg (List.cons_ne_nil _ _), hroot]
  rfl

theorem match_right_fails :
    (∃ x, ofRule [97] = some x ∧ ¬Along step Right (x, x.rule)
      [.matchObject (text [97]), .initializeRule [98], .matchObject (text [98])]) ∧
    ∃ x, ofRule [97, 97, 92] = some x ∧ ¬Along step Right (x, x.rule)
      [.matchObject (text [97]), .initializeRule [98], .matchObject (text [98])] := by
  have ha : Ordinary 97 := ⟨by decide, by decide, by decide⟩
  have hb : Ordinary 98 := ⟨by decide, by decide, by decide⟩
  refine ⟨⟨⟨[], [97], false⟩, rfl, ?_⟩, ⟨[], [97, 97, 92], false⟩, rfl, ?_⟩
  · rintro ⟨-, -, hright, -⟩
    have hdecides := hright (List.cons_ne_nil 98 [])
    simp only [step, call, match_plain ha] at hdecides
    have hne : ([97] : List Int8) ≠ [98] := by decide
    exact not_decides hb hne rfl hdecides
  · rintro ⟨-, -, hright, -⟩
    have hdecides := hright (List.cons_ne_nil 98 [])
    have hleft := match_left hb [CRegExpElement.exact ⟨1, 1⟩ 97] (text [98])
    simp only [step, call, match_refused] at hdecides
    rw [initializeRule, if_neg (List.cons_ne_nil _ _)] at hdecides
    have hne : ([97, 98] : List Int8) ≠ [98] := by decide
    exact not_decides hb hne rfl (hleft ▸ hdecides)

end Samples

end CRegExp

end Xframe.Comserv
