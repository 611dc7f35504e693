import Xframe.Lib.Heap

/-! `CExpireBuffer<TKey, TValue>` of `cexpirebuffer.h`: an intrusive ring of entries around the
sentinel `pTag`, ordered by last refresh, with a map from keys to entries. Every member function is
run on an explicit heap; following a link to a deleted entry has no result. Reference parameters are values:
calls whose arguments are one variable, or a reference into the buffer, as `pop(key, key)` or
`update(key, value, value)`, are outside this model. -/

namespace Xframe.Comserv

open Xframe.Lib

structure ExpireValue (K V : Type) where
  value : V
  key : K
  inittime : ℤ
  refreshtime : ℤ
  endtime : ℤ
  deriving Repr, DecidableEq

/-- The constructor with `inittime` left at its default; `now` is `time(0)`. -/
def ExpireValue.new {K V : Type} (key : K) (value : V) (now : ℤ) : ExpireValue K V :=
  ⟨value, key, now, now, 0⟩

structure Enty (K V : Type) where
  value : Option (ExpireValue K V)
  prev : ℕ
  next : ℕ

structure ExpireBuffer (K V : Type) where
  heap : Heap (Enty K V)
  pHead : ℕ
  pTail : ℕ
  pCurrent : ℕ
  pTag : ℕ
  map : K → Option ℕ
  count : ℕ
  countMax : ℕ
  destroyOld : Bool
  livingTime : ℕ

/-- What a call leaves with its caller: the returned number (a `bool` as 0 or 1) and what it wrote
to the reference arguments `key` and `value`, or `value` and `oldValue`. -/
structure Ret (K V : Type) where
  code : ℕ
  key : Option K
  value : Option V
  deriving Repr, DecidableEq

namespace ExpireBuffer

variable {K V : Type}

def new (maxCount : ℕ) (destroyOld : Bool) (livingTime : ℕ) : ExpireBuffer K V :=
  let (pTag, h) := (Heap.empty : Heap (Enty K V)).alloc ⟨none, 0, 0⟩
  { heap := h.store pTag ⟨none, pTag, pTag⟩
    pHead := pTag, pTail := pTag, pCurrent := pTag, pTag := pTag
    map := fun _ => none, count := 0, countMax := maxCount, destroyOld, livingTime }

def entry (b : ExpireBuffer K V) (p : ℕ) : Option (ExpireValue K V) :=
  (b.heap.read p).bind Enty.value

def setNext (b : ExpireBuffer K V) (p q : ℕ) : Option (ExpireBuffer K V) :=
  (b.heap.modify p fun e => { e with next := q }).map fun h => { b with heap := h }

def setPrev (b : ExpireBuffer K V) (p q : ℕ) : Option (ExpireBuffer K V) :=
  (b.heap.modify p fun e => { e with prev := q }).map fun h => { b with heap := h }

def setValue (b : ExpireBuffer K V) (p : ℕ) (v : ExpireValue K V) : Option (ExpireBuffer K V) :=
  (b.heap.modify p fun e => { e with value := some v }).map fun h => { b with heap := h }

def delete (b : ExpireBuffer K V) (p : ℕ) : Option (ExpireBuffer K V) :=
  (b.heap.free p).map fun h => { b with heap := h }

section Map

variable [DecidableEq K]

def erase (b : ExpireBuffer K V) (key : K) : ExpireBuffer K V :=
  { b with map := Function.update b.map key none }

/-- `find`, and `operator[]` with `tmpValue` for a miss: both only look up and move the cursor. -/
def find (b : ExpireBuffer K V) (key : K) : Option (Ret K V × ExpireBuffer K V) :=
  if b.count = 0 then some (⟨0, none, none⟩, b)
  else match b.map key with
    | none => some (⟨0, none, none⟩, b)
    | some 0 => some (⟨0, none, none⟩, b.erase key)
    | some p => do
      let v ← b.entry p
      some (⟨1, none, some v.value⟩, { b with pCurrent := p })

def popFront (b : ExpireBuffer K V) : Option (Bool × ExpireBuffer K V) :=
  if 0 < b.count then do
    let head ← b.heap.read b.pHead
    let b := { b with pCurrent := head.next }
    let b ← b.setPrev b.pCurrent b.pTag
    let b ← b.setNext b.pTag b.pCurrent
    let v ← b.entry b.pHead
    let b := b.erase v.key
    let b ← b.delete b.pHead
    let b := { b with pHead := b.pCurrent, count := b.count - 1 }
    some (true, if b.count = 0 then { b with pTail := b.pTag } else b)
  else some (false, b)

def popBack (b : ExpireBuffer K V) : Option (Bool × ExpireBuffer K V) :=
  if 0 < b.count then do
    let tail ← b.heap.read b.pTail
    let b := { b with pCurrent := tail.prev }
    let b ← b.setNext b.pCurrent b.pTag
    let b ← b.setPrev b.pTag b.pCurrent
    let v ← b.entry b.pTail
    let b := b.erase v.key
    let b ← b.delete b.pTail
    let b := { b with pTail := b.pCurrent, count := b.count - 1 }
    some (true, if b.count = 0 then { b with pHead := b.pTag } else b)
  else some (false, b)

def popFrontOld (b : ExpireBuffer K V) (currenttime now : ℤ) : Option (Bool × ExpireBuffer K V) :=
  let oldtime := if currenttime = 0 then now else currenttime
  if 0 < b.count then do
    let v ← b.entry b.pHead
    if (b.livingTime : ℤ) < oldtime - v.refreshtime then b.popFront else some (false, b)
  else some (false, b)

def popFrontOut (b : ExpireBuffer K V) : Option (Ret K V × ExpireBuffer K V) :=
  if 0 < b.count then do
    let v ← b.entry b.pHead
    let (r, b) ← b.popFront
    some (⟨r.toNat, some v.key, some v.value⟩, b)
  else some (⟨0, none, none⟩, b)

def popBackOut (b : ExpireBuffer K V) : Option (Ret K V × ExpireBuffer K V) :=
  if 0 < b.count then do
    let v ← b.entry b.pTail
    let (r, b) ← b.popBack
    some (⟨r.toNat, some v.key, some v.value⟩, b)
  else some (⟨0, none, none⟩, b)

def popFrontOldOut (b : ExpireBuffer K V) (currenttime now : ℤ) :
    Option (Ret K V × ExpireBuffer K V) :=
  if 0 < b.count then do
    let v ← b.entry b.pHead
    let (r, b) ← b.popFrontOld currenttime now
    some (⟨r.toNat, some v.key, some v.value⟩, b)
  else some (⟨0, none, none⟩, b)

def popOldLoop : ℕ → ExpireBuffer K V → ℤ → ℤ → ℕ → Option (ℕ × ExpireBuffer K V)
  | 0, _, _, _, _ => none
  | fuel + 1, b, currenttime, now, n => do
    let (r, b) ← b.popFrontOld currenttime now
    if r then popOldLoop fuel b currenttime now (n + 1) else some (n, b)

def popOld (b : ExpireBuffer K V) (currenttime now : ℤ) : Option (ℕ × ExpireBuffer K V) :=
  if 0 < b.count then popOldLoop (b.count + 1) b currenttime now 0 else some (0, b)

def popTail (b : ExpireBuffer K V) (pPrev pNext : ℕ) : Option (ExpireBuffer K V) :=
  if pNext = b.pTag then do
    let b ← b.setPrev b.pTag pPrev
    some { b with pTail := pPrev, pCurrent := pPrev, pHead := if b.count = 0 then b.pTag else b.pHead }
  else some b

def popHead (b : ExpireBuffer K V) (pPrev pNext : ℕ) : Option (ExpireBuffer K V) :=
  if pPrev = b.pTag then do
    let b ← b.setNext b.pTag pNext
    some { b with pHead := pNext, pCurrent := pNext, pTail := if b.count = 0 then b.pTag else b.pTail }
  else some b

def pop (b : ExpireBuffer K V) (key : K) : Option (Ret K V × ExpireBuffer K V) :=
  if b.count = 0 then some (⟨0, none, none⟩, b)
  else match b.map key with
    | none => some (⟨0, none, none⟩, b)
    | some 0 => some (⟨0, none, none⟩, b.erase key)
    | some p => do
      let v ← b.entry p
      let e ← b.heap.read p
      let b := { b with count := b.count - 1 }
      let b ← b.delete p
      let b ← b.popTail e.prev e.next
      let b ← b.popHead e.prev e.next
      let b ← b.setNext e.prev e.next
      let b ← b.setPrev e.next e.prev
      some (⟨1, none, some v.value⟩, b.erase key)

def pushTail (b : ExpireBuffer K V) (p : ℕ) : Option (ExpireBuffer K V) :=
  if b.count = 0 then setNext { b with pHead := p, pTail := p } b.pTag p
  else do
    let b ← b.setNext b.pTail p
    some { b with pTail := p }

def push (b : ExpireBuffer K V) (key : K) (value : V) (now : ℤ) :
    Option (ℕ × ExpireBuffer K V) :=
  if (b.map key).isSome then some (0, b)
  else if ¬b.destroyOld ∧ 0 < b.countMax ∧ b.countMax ≤ b.count then some (0, b)
  else do
    let (p, h) := b.heap.alloc ⟨some (.new key value now), b.pTail, b.pTag⟩
    let b := { b with heap := h, pCurrent := p, map := Function.update b.map key (some p) }
    let b ← b.pushTail p
    let b ← b.setPrev b.pTag b.pTail
    let b := { b with count := b.count + 1 }
    if 0 < b.countMax ∧ b.countMax < b.count then do
      let (_, b) ← b.popFront
      some (2, b)
    else some (1, b)

def oldHead (b : ExpireBuffer K V) : Option (Option V) :=
  if 0 < b.countMax ∧ b.countMax ≤ b.count then (b.entry b.pHead).map fun v => some v.value
  else some none

def pushOld (b : ExpireBuffer K V) (key : K) (value : V) (now : ℤ) :
    Option (Ret K V × ExpireBuffer K V) := do
  let tmpValue ← b.oldHead
  let (ret, b) ← b.push key value now
  some (⟨ret, none, if ret = 2 then tmpValue else none⟩, b)

def moveToTail (b : ExpireBuffer K V) : Option (ExpireBuffer K V) :=
  if b.pCurrent = b.pTail then some b
  else do
    let e ← b.heap.read b.pCurrent
    let b ← b.setNext e.prev e.next
    let b ← b.setPrev e.next e.prev
    let b := { b with pHead := if b.pCurrent = b.pHead then e.next else b.pHead }
    let b ← b.setNext b.pTail b.pCurrent
    let b ← b.setPrev b.pTag b.pCurrent
    let b ← b.setNext b.pCurrent b.pTag
    let b ← b.setPrev b.pCurrent b.pTail
    some { b with pTail := b.pCurrent }

def update (b : ExpireBuffer K V) (key : K) (refreshtime now : ℤ) :
    Option (Ret K V × ExpireBuffer K V) :=
  match b.map key with
  | none => some (⟨0, none, none⟩, b)
  | some p => do
    let b := { b with pCurrent := p }
    let v ← b.entry p
    let stamp := if refreshtime = 0 then now else refreshtime
    let b ← b.setValue p { v with refreshtime := stamp }
    let b ← b.moveToTail
    some (⟨1, none, none⟩, b)

def updateValue (b : ExpireBuffer K V) (key : K) (value : V) (now : ℤ) :
    Option (Ret K V × ExpireBuffer K V) :=
  match b.map key with
  | none => some (⟨0, none, none⟩, b)
  | some p => do
    let b := { b with pCurrent := p }
    let v ← b.entry p
    let b ← b.setValue p { v with value := value, refreshtime := now }
    let b ← b.moveToTail
    some (⟨1, none, some v.value⟩, b)

inductive Op (K V : Type) where
  | push (key : K) (value : V) (now : ℤ)
  | pushOld (key : K) (value : V) (now : ℤ)
  | find (key : K)
  | update (key : K) (refreshtime now : ℤ)
  | updateValue (key : K) (value : V) (now : ℤ)
  | pop (key : K)
  | popFront
  | popBack
  | popFrontOld (currenttime now : ℤ)
  | popOld (currenttime now : ℤ)

def exec (b : ExpireBuffer K V) : Op K V → Option (Ret K V × ExpireBuffer K V)
  | .push key value now => (b.push key value now).map fun (r, b) => (⟨r, none, none⟩, b)
  | .pushOld key value now => b.pushOld key value now
  | .find key => b.find key
  | .update key refreshtime now => b.update key refreshtime now
  | .updateValue key value now => b.updateValue key value now
  | .pop key => b.pop key
  | .popFront => b.popFrontOut
  | .popBack => b.popBackOut
  | .popFrontOld currenttime now => b.popFrontOldOut currenttime now
  | .popOld currenttime now => (b.popOld currenttime now).map fun (r, b) => (⟨r, none, none⟩, b)

section Cases

variable {b b' : ExpireBuffer K V} {key : K} {value : V} {r : Ret K V} {t now : ℤ}

omit [DecidableEq K] in
lemma update_cases (h : b.update key t now = some (r, b')) : b' = b ∨ ∃ p v b₁, b.map key = some p ∧
    setValue { b with pCurrent := p } p v = some b₁ ∧ b₁.moveToTail = some b' := by
  rw [update] at h
  split at h
  · cases h
    exact Or.inl rfl
  · next p hp =>
    simp only [Option.bind_eq_bind, Option.bind_eq_some_iff] at h
    obtain ⟨v, -, b₁, h₁, b₂, h₂, heq⟩ := h
    cases heq
    exact Or.inr ⟨p, _, b₁, hp, h₁, h₂⟩

omit [DecidableEq K] in
lemma updateValue_cases (h : b.updateValue key value now = some (r, b')) : b' = b ∨ ∃ p v b₁, b.map key = some p ∧
    setValue { b with pCurrent := p } p v = some b₁ ∧ b₁.moveToTail = some b' := by
  rw [updateValue] at h
  split at h
  · cases h
    exact Or.inl rfl
  · next p hp =>
    simp only [Option.bind_eq_bind, Option.bind_eq_some_iff] at h
    obtain ⟨v, -, b₁, h₁, b₂, h₂, heq⟩ := h
    cases heq
    exact Or.inr ⟨p, _, b₁, hp, h₁, h₂⟩

lemma popFrontOut_cases (h : b.popFrontOut = some (r, b')) : b' = b ∨ ∃ d, b.popFront = some (d, b') := by
  rw [popFrontOut] at h
  split at h
  · obtain ⟨v, -, h⟩ := Option.bind_eq_some_iff.mp h
    obtain ⟨⟨d, b₁⟩, hpop, heq⟩ := Option.bind_eq_some_iff.mp h
    cases heq
    exact Or.inr ⟨d, hpop⟩
  · cases h
    exact Or.inl rfl

lemma popBackOut_cases (h : b.popBackOut = some (r, b')) : b' = b ∨ ∃ d, b.popBack = some (d, b') := by
  rw [popBackOut] at h
  split at h
  · obtain ⟨v, -, h⟩ := Option.bind_eq_some_iff.mp h
    obtain ⟨⟨d, b₁⟩, hpop, heq⟩ := Option.bind_eq_some_iff.mp h
    cases heq
    exact Or.inr ⟨d, hpop⟩
  · cases h
    exact Or.inl rfl

lemma popFrontOldOut_cases (h : b.popFrontOldOut t now = some (r, b')) :
    b' = b ∨ ∃ d, b.popFrontOld t now = some (d, b') := by
  rw [popFrontOldOut] at h
  split at h
  · obtain ⟨v, -, h⟩ := Option.bind_eq_some_iff.mp h
    obtain ⟨⟨d, b₁⟩, hpop, heq⟩ := Option.bind_eq_some_iff.mp h
    cases heq
    exact Or.inr ⟨d, hpop⟩
  · cases h
    exact Or.inl rfl

end Cases

end Map

end ExpireBuffer

end Xframe.Comserv
