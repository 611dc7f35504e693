import Mathlib.Tactic

/-! The matcher of `cregexpele.C`: elements with a modifier, and the search that tries them from left
to right. Positions are those of the string's iterators; a read that has no result ends the search. -/

namespace Xframe.Comserv

structure EleModifier where
  minimum : ℤ
  maximum : ℤ
  deriving DecidableEq

structure CGroupItem (C : Type) where
  first : C
  last : C

inductive CRegExpElement (C : Type) where
  | exact (modifier : EleModifier) (c : C)
  | anyOne (modifier : EleModifier)
  | group (modifier : EleModifier) (reversed : Bool) (componentList : List (CGroupItem C))

inductive MResult where
  | certain
  | certainNot
  | unCertain
  deriving DecidableEq

namespace CRegExpElement

variable {C : Type}

def modifier : CRegExpElement C → EleModifier
  | exact m _ => m
  | anyOne m => m
  | group m _ _ => m

def passWhile (accepts : C → Bool) (read : ℤ → Option C) (m : EleModifier) (target objB passed : ℤ) :
    Option (MResult × ℤ) :=
  if (objB < target ∨ passed < m.minimum) ∧ passed < m.maximum then
    match read objB with
    | none => none
    | some c =>
      if accepts c then passWhile accepts read m target (objB + 1) (passed + 1)
      else some (.certainNot, objB)
  else if passed = m.maximum ∧ objB < target then some (.certainNot, objB)
  else if passed = m.maximum ∧ target = objB then some (.certain, objB)
  else some (.unCertain, objB)
termination_by (m.maximum - passed).toNat
decreasing_by omega

def matchFrontBy (accepts : C → Bool) (read : ℤ → Option C) (m : EleModifier) (objB objE target : ℤ) :
    Option (MResult × ℤ) :=
  if target - objB ≤ m.maximum ∧ m.minimum ≤ objE - objB then passWhile accepts read m target objB 0
  else some (.certainNot, objB)

section Order

variable [DecidableEq C] [LE C] [DecidableLE C]

def matchComponent (reversed : Bool) (componentList : List (CGroupItem C)) (object : C) : Bool :=
  let found := componentList.any fun item => decide (item.first ≤ object ∧ object ≤ item.last)
  if reversed then !found else found

def matchFront (x : CRegExpElement C) (read : ℤ → Option C) (objB objE target : ℤ) : Option (MResult × ℤ) :=
  match x with
  | exact m c => matchFrontBy (fun object => object = c) read m objB objE target
  | anyOne m =>
    if target - objB = m.maximum then some (.certain, target)
    else if target - objB < m.maximum ∧ m.minimum ≤ objE - objB then
      some (.unCertain, if target < objB + m.minimum then objB + m.minimum else target)
    else some (.certainNot, objB)
  | group m reversed componentList => matchFrontBy (matchComponent reversed componentList) read m objB objE target

lemma unCertain_le {x : CRegExpElement C} {read : ℤ → Option C} {objB objE target p : ℤ}
    (h : x.matchFront read objB objE target = some (.unCertain, p)) :
    target - objB ≤ x.modifier.maximum := by
  have hby : ∀ {accepts : C → Bool} {m : EleModifier},
      matchFrontBy accepts read m objB objE target = some (.unCertain, p) → target - objB ≤ m.maximum := by
    intro accepts m h
    rw [matchFrontBy] at h
    split at h
    · next hle => exact hle.1
    · simp at h
  cases x with
  | exact m c => exact hby h
  | anyOne m =>
    rw [matchFront] at h
    split at h
    · simp at h
    split at h
    · next hlt => exact hlt.1.le
    · simp at h
  | group m reversed componentList => exact hby h

/-- `match_impl` at the head of its loop, where `obj_it_temp` is `obj_b_cur`: `objB` is both. -/
def matchFrom (read : ℤ → Option C) (objE : ℤ) : List (CRegExpElement C) → ℤ → ℤ → Option Bool
  | [], objB, _ => some (objB = objE)
  | x :: next, objB, target =>
    match h : x.matchFront read objB objE target with
    | none => none
    | some (.certain, p) => matchFrom read objE next p p
    | some (.certainNot, _) => some false
    | some (.unCertain, p) =>
      match matchFrom read objE next p p with
      | none => none
      | some true => some true
      | some false => matchFrom read objE (x :: next) objB (target + 1)
termination_by elements objB target =>
  (elements.length, (elements.head?.elim 0 (fun x => x.modifier.maximum) + 1 + objB - target).toNat)
decreasing_by
  · exact Prod.Lex.left _ _ (by simp)
  · exact Prod.Lex.left _ _ (by simp)
  · refine Prod.Lex.right _ ?_
    have := unCertain_le h
    simp only [List.head?_cons, Option.elim_some]
    omega

def matchImpl (read : ℤ → Option C) (objB objE : ℤ) (elements : List (CRegExpElement C)) : Option Bool :=
  matchFrom read objE elements objB objB

/-- `CRegExpEleRoot::match` of a string of `length` characters that `read` reads. -/
def rootMatch (elements : List (CRegExpElement C)) (read : ℤ → Option C) (length : ℕ) : Option Bool :=
  matchImpl read 0 length elements

end Order

end CRegExpElement

end Xframe.Comserv
