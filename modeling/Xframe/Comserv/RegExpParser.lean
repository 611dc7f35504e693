import Xframe.Comserv.RegExpEle

/-! The rule parser of `cregexpele.C`. An iterator is what is left of the rule behind it; a function that
throws has no result. Numbers are `int`s of 32 bits. -/

namespace Xframe.Comserv

structure GeneralChar where
  character : Int8
  escaped : Bool
  deriving DecidableEq

namespace CRegExpParser

def maxCount : ℤ := 10000

/-- A backslash that is not the last character escapes the next one. -/
def getNextChar : List Int8 → Option (GeneralChar × List Int8)
  | [] => none
  | c :: it =>
    if c = 92 then
      match it with
      | [] => none
      | d :: it => some (⟨d, true⟩, it)
    else some (⟨c, false⟩, it)

end CRegExpParser

namespace GeneralChar

def text (gc : GeneralChar) : List Int8 := if gc.escaped then [92, gc.character] else [gc.character]

def Valid (gc : GeneralChar) : Prop := gc.escaped ∨ gc.character ≠ 92

lemma length_text (gc : GeneralChar) : 0 < gc.text.length := by
  unfold text
  split_ifs <;> exact Nat.succ_pos _

end GeneralChar

namespace CRegExpParser

lemma getNextChar_eq_some {it it' : List Int8} {gc : GeneralChar} :
    getNextChar it = some (gc, it') ↔ gc.Valid ∧ it = gc.text ++ it' := by
  obtain ⟨c, e⟩ := gc
  constructor
  · intro h
    fun_cases getNextChar it with
    | case1 => cases h
    | case2 => cases h
    | case3 d it =>
      cases h
      exact ⟨Or.inl rfl, rfl⟩
    | case4 d it hd =>
      obtain ⟨hgc, rfl⟩ := Prod.mk.inj (Option.some.inj (h.symm.trans (if_neg hd)))
      obtain ⟨rfl, rfl⟩ := GeneralChar.mk.inj hgc
      exact ⟨Or.inr hd, rfl⟩
  · rintro ⟨hv, rfl⟩
    cases e with
    | true => rfl
    | false =>
      have hc : c ≠ 92 := hv.resolve_left Bool.false_ne_true
      exact if_neg hc

lemma getNextChar_text {gc : GeneralChar} (hv : gc.Valid) (it : List Int8) :
    getNextChar (gc.text ++ it) = some (gc, it) := getNextChar_eq_some.2 ⟨hv, rfl⟩

lemma getNextChar_lt {it it' : List Int8} {gc : GeneralChar} (h : getNextChar it = some (gc, it')) :
    it'.length < it.length := by
  obtain ⟨-, rfl⟩ := getNextChar_eq_some.1 h
  have hl := gc.length_text
  rw [List.length_append]
  omega

inductive GroupStatus where
  | searchReverseTag
  | readingBeginChar
  | searchSpliter
  | readingEndChar
  deriving DecidableEq

structure GroupState where
  status : GroupStatus
  reversed : Bool
  bChar : Int8
  componentList : List (CGroupItem Int8)

def finChar : GeneralChar := ⟨93, false⟩

def spliteChar : GeneralChar := ⟨45, false⟩

def reverseChar : GeneralChar := ⟨94, false⟩

def groupStep (s : GroupState) (gc : GeneralChar) : Option GroupState :=
  match s.status with
  | .searchReverseTag =>
    if gc = reverseChar then some { s with reversed := true, status := .readingBeginChar }
    else some { s with bChar := gc.character, status := .searchSpliter }
  | .readingBeginChar =>
    if gc = spliteChar then none else some { s with bChar := gc.character, status := .searchSpliter }
  | .searchSpliter =>
    if gc = spliteChar then some { s with status := .readingEndChar }
    else some { s with componentList := s.componentList ++ [⟨s.bChar, s.bChar⟩], bChar := gc.character }
  | .readingEndChar =>
    if gc = spliteChar then none
    else some { s with componentList := s.componentList ++ [⟨s.bChar, gc.character⟩], status := .readingBeginChar }

def finish (s : GroupState) : GroupState :=
  if s.status = .searchSpliter then { s with componentList := s.componentList ++ [⟨s.bChar, s.bChar⟩] } else s

def groupLoop (s : GroupState) (it : List Int8) : Option (GroupState × List Int8) :=
  match _h : getNextChar it with
  | none => none
  | some (gc, it') =>
    if gc = finChar then some (finish s, it')
    else
      match groupStep s gc with
      | none => none
      | some s => groupLoop s it'
termination_by it.length
decreasing_by exact getNextChar_lt _h

/-- `CRegExpEleGroup::parse`: the flag, the components and what is left. -/
def parseGroup (it : List Int8) : Option ((Bool × List (CGroupItem Int8)) × List Int8) := do
  let (gc, it) ← getNextChar it
  if gc = ⟨91, false⟩ then do
    let (s, it) ← groupLoop ⟨.searchReverseTag, false, 0, []⟩ it
    if s.status ≠ .searchSpliter ∧ s.status ≠ .readingBeginChar ∨ s.componentList = [] then none
    else some ((s.reversed, s.componentList), it)
  else none

inductive Body where
  | exact (c : Int8)
  | anyOne
  | group (reversed : Bool) (componentList : List (CGroupItem Int8))

def setModifier (m : EleModifier) : Body → CRegExpElement Int8
  | .exact c => .exact m c
  | .anyOne => .anyOne m
  | .group reversed componentList => .group m reversed componentList

def produceElementBody (it : List Int8) : Option (Body × List Int8) := do
  let (gc, it') ← getNextChar it
  if gc.escaped then some (.exact gc.character, it')
  else if gc.character = 46 then some (.anyOne, it')
  else if gc.character = 91 then do
    let ((reversed, componentList), it) ← parseGroup it
    some (.group reversed componentList, it)
  else some (.exact gc.character, it')

/-- The result of `int` arithmetic. -/
def wrap (n : ℤ) : ℤ := n.bmod (2 ^ 32)

structure RangeState where
  readingMax : Bool
  min : ℤ
  max : ℤ
  minRead : Bool
  maxRead : Bool
  commaRead : Bool

def isDigit (c : Int8) : Bool := 48 ≤ c && c ≤ 57

def addDigit (n : ℤ) (c : Int8) : ℤ := wrap (wrap (n * 10) + (c.toInt - 48))

def rangeStep (s : RangeState) (c : Int8) : Option RangeState :=
  if s.readingMax then
    if isDigit c then some { s with maxRead := true, max := addDigit s.max c } else none
  else if isDigit c then some { s with minRead := true, min := addDigit s.min c }
  else if c = 44 then
    if s.minRead then some { s with commaRead := true, readingMax := true } else none
  else none

def rangeLoop (s : RangeState) (it : List Int8) : Option (RangeState × List Int8) :=
  match _h : getNextChar it with
  | none => none
  | some (gc, it') =>
    if gc.escaped then if gc.character = 125 then some (s, it') else none
    else
      match rangeStep s gc.character with
      | none => none
      | some s => rangeLoop s it'
termination_by it.length
decreasing_by exact getNextChar_lt _h

def produceModifierRange (it : List Int8) : Option (EleModifier × List Int8) := do
  let (s, it) ← rangeLoop ⟨false, 0, 0, false, false, false⟩ it
  if s.maxRead then if s.max < s.min then none else some (⟨s.min, s.max⟩, it)
  else if s.commaRead then some (⟨s.min, maxCount⟩, it)
  else some (⟨s.min, s.min⟩, it)

def produceElementModifier (it : List Int8) : Option (EleModifier × List Int8) :=
  if it = [] then some (⟨1, 1⟩, it)
  else do
    let (gc, it') ← getNextChar it
    if gc.escaped then if gc.character = 123 then produceModifierRange it' else some (⟨1, 1⟩, it)
    else if gc.character = 63 then some (⟨0, 1⟩, it')
    else if gc.character = 43 then some (⟨1, maxCount⟩, it')
    else if gc.character = 42 then some (⟨0, maxCount⟩, it')
    else some (⟨1, 1⟩, it)

def produceElement (it : List Int8) : Option (CRegExpElement Int8 × List Int8) := do
  let (body, it) ← produceElementBody it
  let (modifier, it) ← produceElementModifier it
  some (setModifier modifier body, it)

section Lengths

variable {it it' : List Int8}

lemma groupLoop_lt {s s' : GroupState} (h : groupLoop s it = some (s', it')) : it'.length < it.length := by
  fun_induction groupLoop s it with
  | case1 => cases h
  | case2 s it it₁ hget =>
    cases h
    exact getNextChar_lt hget
  | case3 => cases h
  | case4 s it gc it₁ hget hfin s₁ hstep ih => exact (ih h).trans (getNextChar_lt hget)

lemma rangeLoop_lt {s s' : RangeState} (h : rangeLoop s it = some (s', it')) : it'.length < it.length := by
  fun_induction rangeLoop s it with
  | case1 => cases h
  | case2 s it gc it₁ =>
    cases h
    exact getNextChar_lt ‹getNextChar it = some (_, _)›
  | case3 => cases h
  | case4 => cases h
  | case5 s it gc it₁ hget hesc s₁ hstep ih => exact (ih h).trans (getNextChar_lt ‹getNextChar it = some (_, _)›)

lemma parseGroup_lt {group : Bool × List (CGroupItem Int8)} (h : parseGroup it = some (group, it')) :
    it'.length < it.length := by
  obtain ⟨⟨gc, it₁⟩, hget, h⟩ := Option.bind_eq_some_iff.1 h
  dsimp only at h
  split_ifs at h
  obtain ⟨⟨s, it₂⟩, hloop, h⟩ := Option.bind_eq_some_iff.1 h
  dsimp only at h
  split_ifs at h
  cases h
  exact (groupLoop_lt hloop).trans (getNextChar_lt hget)

lemma produceElementBody_lt {body : Body} (h : produceElementBody it = some (body, it')) :
    it'.length < it.length := by
  obtain ⟨⟨gc, it₁⟩, hget, h⟩ := Option.bind_eq_some_iff.1 h
  dsimp only at h
  split_ifs at h
  · cases h
    exact getNextChar_lt hget
  · cases h
    exact getNextChar_lt hget
  · obtain ⟨group, hgroup, h⟩ := Option.bind_eq_some_iff.1 h
    cases h
    exact parseGroup_lt hgroup
  · cases h
    exact getNextChar_lt hget

lemma produceModifierRange_lt {m : EleModifier} (h : produceModifierRange it = some (m, it')) :
    it'.length < it.length := by
  obtain ⟨⟨s, it₁⟩, hloop, h⟩ := Option.bind_eq_some_iff.1 h
  have hl := rangeLoop_lt hloop
  dsimp only at h
  split_ifs at h <;> cases h <;> exact hl

lemma produceElementModifier_le {m : EleModifier} (h : produceElementModifier it = some (m, it')) :
    it'.length ≤ it.length := by
  unfold produceElementModifier at h
  split_ifs at h
  · cases h
    exact le_rfl
  · obtain ⟨⟨gc, it₁⟩, hget, h⟩ := Option.bind_eq_some_iff.1 h
    have hl := getNextChar_lt hget
    dsimp only at h
    split_ifs at h
    · exact ((produceModifierRange_lt h).trans hl).le
    all_goals
      cases h
      first | exact hl.le | exact le_rfl

lemma produceElement_lt {x : CRegExpElement Int8} (h : produceElement it = some (x, it')) :
    it'.length < it.length := by
  obtain ⟨⟨body, it₁⟩, hbody, h⟩ := Option.bind_eq_some_iff.1 h
  obtain ⟨⟨m, it₂⟩, hmodifier, h⟩ := Option.bind_eq_some_iff.1 h
  cases h
  exact (produceElementModifier_le hmodifier).trans_lt (produceElementBody_lt hbody)

end Lengths

/-- `CRegExpEleRoot::parse`: what it leaves in the list, and whether it returns. -/
def rootParse (elements : List (CRegExpElement Int8)) (it : List Int8) : List (CRegExpElement Int8) × Bool :=
  if it = [] then (elements, true)
  else
    match _h : produceElement it with
    | none => (elements, false)
    | some (x, it') => rootParse (elements ++ [x]) it'
termination_by it.length
decreasing_by exact produceElement_lt _h

def parse (rule : List Int8) : Option (List (CRegExpElement Int8)) :=
  if (rootParse [] rule).2 then some (rootParse [] rule).1 else none

end CRegExpParser

end Xframe.Comserv
