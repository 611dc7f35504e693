import Xframe.Lib.Nodes

/-! `CList<TValue>` of `clist.h`: a ring of entries around the sentinel `m_pTag`, with a head, a tail
and a current pointer. Every member function is run on an explicit heap; following a link to a deleted
entry has no result. -/

namespace Xframe.Comserv

open Xframe.Lib

structure Compare (V : Type) where
  eq : V → V → Bool
  ge : V → V → Bool
  le : V → V → Bool

structure CList (V : Type) where
  heap : Heap (Node V)
  pHead : ℕ
  pTail : ℕ
  pCurrent : ℕ
  pTag : ℕ
  count : ℕ

namespace CList

variable {V : Type}

def new [Inhabited V] : CList V :=
  let (pTag, h) := (Heap.empty : Heap (Node V)).alloc ⟨default, 0, 0⟩
  ⟨h.store pTag ⟨default, pTag, pTag⟩, pTag, pTag, pTag, pTag, 0⟩

def front (b : CList V) : Bool × CList V :=
  if 0 < b.count ∧ b.pHead ≠ b.pTag then (true, { b with pCurrent := b.pHead }) else (false, b)

def back (b : CList V) : Bool × CList V :=
  if 0 < b.count ∧ b.pTail ≠ b.pTag then (true, { b with pCurrent := b.pTail }) else (false, b)

def popFront (b : CList V) : Option (ℕ × CList V) :=
  if 0 < b.count then do
    let head ← b.heap.read b.pHead
    let pCurrent := head.next
    let h ← b.heap.setPrev pCurrent b.pTag
    let h ← h.setNext b.pTag pCurrent
    let h ← h.free b.pHead
    let count := b.count - 1
    some (count, { b with
      heap := h, pCurrent, pHead := pCurrent, count, pTail := if count = 0 then b.pTag else b.pTail })
  else some (b.count, b)

def popBack (b : CList V) : Option (ℕ × CList V) :=
  if 0 < b.count then do
    let tail ← b.heap.read b.pTail
    let pCurrent := tail.prev
    let h ← b.heap.setNext pCurrent b.pTag
    let h ← h.setPrev b.pTag pCurrent
    let h ← h.free b.pTail
    let count := b.count - 1
    some (count, { b with
      heap := h, pCurrent, pTail := pCurrent, count, pHead := if count = 0 then b.pTag else b.pHead })
  else some (b.count, b)

def popCurrent (b : CList V) : Option (ℕ × CList V) :=
  if b.count = 0 ∨ b.pCurrent = b.pTag then some (0, b)
  else do
    let e ← b.heap.read b.pCurrent
    if e.next = b.pTag then b.popBack
    else if e.prev = b.pTag then b.popFront
    else do
      let h ← b.heap.free b.pCurrent
      let h ← h.setPrev e.next e.prev
      let h ← h.setNext e.prev e.next
      some (b.count - 1, { b with heap := h, pCurrent := e.next, count := b.count - 1 })

def pushFrontR (b : CList V) (value : V) : Option (ℕ × CList V) := do
  let (pCurrent, h) := b.heap.alloc ⟨value, b.pTag, b.pHead⟩
  let count := b.count + 1
  if b.count = 0 then do
    let h ← h.setPrev b.pTag pCurrent
    let h ← h.setNext b.pTag pCurrent
    some (count, { b with heap := h, pCurrent, pHead := pCurrent, pTail := pCurrent, count })
  else do
    let h ← h.setPrev b.pHead pCurrent
    let h ← h.setNext b.pTag pCurrent
    some (count, { b with heap := h, pCurrent, pHead := pCurrent, count })

def pushBackR (b : CList V) (value : V) : Option (ℕ × CList V) := do
  let (pCurrent, h) := b.heap.alloc ⟨value, b.pTail, b.pTag⟩
  let count := b.count + 1
  if b.count = 0 then do
    let h ← h.setNext b.pTag pCurrent
    let h ← h.setPrev b.pTag pCurrent
    some (count, { b with heap := h, pCurrent, pHead := pCurrent, pTail := pCurrent, count })
  else do
    let h ← h.setNext b.pTail pCurrent
    let h ← h.setPrev b.pTag pCurrent
    some (count, { b with heap := h, pCurrent, pTail := pCurrent, count })

def removeAll : ℕ → CList V → Option (CList V)
  | 0, _ => none
  | fuel + 1, b => do
    let (n, b) ← b.popFront
    if n = 0 then some b else removeAll fuel b

def clear (b : CList V) : Option (CList V) := removeAll (b.count + 1) b

def ishead (b : CList V) : Option Bool :=
  if b.pCurrent = b.pTag then some false
  else do
    let e ← b.heap.read b.pCurrent
    some (decide (e.prev = b.pTag))

def istail (b : CList V) : Option Bool :=
  if b.pCurrent = b.pTag then some false
  else do
    let e ← b.heap.read b.pCurrent
    some (decide (e.next = b.pTag))

def next (b : CList V) : Option (Bool × CList V) := do
  if ← b.istail then some (false, b)
  else do
    let e ← b.heap.read b.pCurrent
    some (decide (e.next ≠ b.pTag), { b with pCurrent := e.next })

def prev (b : CList V) : Option (Bool × CList V) := do
  if ← b.ishead then some (false, b)
  else do
    let e ← b.heap.read b.pCurrent
    some (true, { b with pCurrent := e.prev })

def reset (b : CList V) : CList V := { b with pCurrent := b.pHead }

def resetT (b : CList V) : CList V := { b with pCurrent := b.pTail }

def resetD (b : CList V) : CList V := { b with pCurrent := b.pTag }

def addrFrom (b : CList V) : ℕ → ℕ → Option ℕ
  | 0, p => some p
  | pos + 1, p =>
    if p ≠ b.pTag ∧ p ≠ 0 then do
      let e ← b.heap.read p
      addrFrom b pos e.next
    else some p

def addr (b : CList V) (pos : ℤ) : Option (Bool × CList V) :=
  if b.count = 0 then some (false, b)
  else if pos < 0 ∨ (b.count : ℤ) ≤ pos then some (false, b)
  else do
    let p ← b.addrFrom pos.toNat b.pHead
    some (true, { b with pCurrent := p })

def resetPos (b : CList V) (index : ℤ) : Option (Option Bool × CList V) :=
  if 0 ≤ index ∧ index ≤ b.count then do
    let (r, b) ← b.addr index
    some (some r, b)
  else some (none, b)

def whileIter {σ : Type} (body : σ → V → Option σ) (b : CList V) : ℕ → ℕ → σ → Option σ
  | 0, _, _ => none
  | fuel + 1, p, s => do
    let tail ← b.heap.read b.pTail
    if p = tail.next then some s
    else do
      let e ← b.heap.read p
      let s ← body s e.value
      whileIter body b fuel e.next s

def forIter {σ : Type} (body : σ → V → Option σ) (b : CList V) (s : σ) : Option σ :=
  b.whileIter body (b.count + 1) b.pHead s

/-- What a call leaves with its caller: the value returned (a `BOOL` as 0 or 1, nothing for a function
that ends without a `return`) and the value written to its `TValue&` argument, a variable of the caller. -/
structure Answer (V : Type) where
  ret : Option ℕ
  value : Option V
  deriving DecidableEq

def Answer.flag (b : Bool) (value : Option V) : Answer V := ⟨some b.toNat, value⟩

def Answer.length (n : ℕ) (value : Option V) : Answer V := ⟨some n, value⟩

def Answer.void : Answer V := ⟨none, none⟩

def valueAt (b : CList V) (p : ℕ) : Option V := (b.heap.read p).map Node.value

def current (b : CList V) : Option (Answer V × CList V) :=
  if b.pCurrent = b.pTag ∨ b.pCurrent = 0 then some (.flag false none, b)
  else do
    let v ← b.valueAt b.pCurrent
    some (.flag true (some v), b)

def frontValue (b : CList V) : Option (Answer V × CList V) := do
  let (r, b) := b.front
  if r then do
    let v ← b.valueAt b.pHead
    some (.flag true (some v), b)
  else some (.flag false none, b)

def backValue (b : CList V) : Option (Answer V × CList V) := do
  let (r, b) := b.back
  if r then do
    let v ← b.valueAt b.pTail
    some (.flag true (some v), b)
  else some (.flag false none, b)

def popFrontValue (b : CList V) : Option (Answer V × CList V) := do
  let v ← (if 0 < b.count then (b.valueAt b.pHead).map some else some none)
  let (n, b) ← b.popFront
  some (.length n v, b)

def popBackValue (b : CList V) : Option (Answer V × CList V) := do
  let v ← (if 0 < b.count then (b.valueAt b.pTail).map some else some none)
  let (n, b) ← b.popBack
  some (.length n v, b)

def popCurrentValue (b : CList V) : Option (Answer V × CList V) := do
  let v ← (if 0 < b.count ∧ b.pCurrent ≠ b.pTag then (b.valueAt b.pCurrent).map some else some none)
  let (n, b) ← b.popCurrent
  some (.length n v, b)

def nextValue (b : CList V) : Option (Answer V × CList V) := do
  let (r, b) ← b.next
  if r then do
    let v ← b.valueAt b.pCurrent
    some (.flag true (some v), b)
  else some (.flag false none, b)

def prevValue (b : CList V) : Option (Answer V × CList V) := do
  let (r, b) ← b.prev
  if r then do
    let v ← b.valueAt b.pCurrent
    some (.flag true (some v), b)
  else some (.flag false none, b)

def nextD (b : CList V) : Option (Answer V × CList V) := do
  let (a, b) ← b.nextValue
  if a.ret = some 0 then do
    if (← b.istail) ∧ 1 < b.count then b.reset.current else some (.flag true none, b)
  else some (.flag true a.value, b)

def prevD (b : CList V) : Option (Answer V × CList V) := do
  let (a, b) ← b.prevValue
  if a.ret = some 0 then do
    if (← b.ishead) ∧ 1 < b.count then b.resetT.current else some (.flag true none, b)
  else some (.flag true a.value, b)

def get (b : CList V) (pos : ℤ) : Option (Answer V × CList V) := do
  let (r, b) ← b.addr pos
  if r then do
    let v ← b.valueAt b.pCurrent
    some (.flag true (some v), b)
  else some (.flag false none, b)

def set (b : CList V) (pos : ℤ) (value : V) : Option (Bool × CList V) := do
  let (r, b) ← b.addr pos
  if r then do
    let h ← b.heap.setValue b.pCurrent value
    some (true, { b with heap := h })
  else some (false, b)

/-- What the argument of `remove` and `contain` refers to while they run: a variable of the caller (the sentinel's
value counts as one), or the value of a node. The other arguments are read once, before anything changes, and stand for
their values; a variable that receives a value is outside the lists. -/
inductive Ref (V : Type)
  | outside (v : V)
  | node (p : ℕ)

def deref (b : CList V) : Ref V → Option V
  | .outside v => some v
  | .node p => b.valueAt p

section Compare

variable (cmp : Compare V)

def containFrom (value : Ref V) : ℕ → CList V → Option (Bool × CList V)
  | 0, _ => none
  | fuel + 1, b =>
    if b.pCurrent ≠ b.pTag ∧ b.pCurrent ≠ 0 then do
      let e ← b.heap.read b.pCurrent
      let v ← b.deref value
      if cmp.eq e.value v then some (true, b)
      else containFrom value fuel { b with pCurrent := e.next }
    else some (false, b)

def contain (b : CList V) (value : Ref V) : Option (Bool × CList V) :=
  b.containFrom cmp value (b.count + 1)

def removeFrom (value : Ref V) : ℕ → ℕ → CList V → Option (ℕ × CList V)
  | 0, _, _ => none
  | fuel + 1, i, b => do
    let (r, b) ← b.contain cmp value
    if r then do
      let (_, b) ← b.popCurrent
      removeFrom value fuel (i + 1) b.reset
    else some (i, b)

def remove (b : CList V) (value : Ref V) : Option (ℕ × CList V) :=
  removeFrom cmp value (b.count + 1) 0 b.reset

def sortFrom (value : V) (mode : ℤ) : ℕ → CList V → Option (CList V)
  | 0, _ => none
  | fuel + 1, b =>
    if b.pCurrent ≠ b.pTag then do
      let e ← b.heap.read b.pCurrent
      if (if mode = 0 then cmp.ge value e.value else cmp.le value e.value) then
        sortFrom value mode fuel { b with pCurrent := e.next }
      else some b
    else some b

def insertSort (b : CList V) (value : V) (mode : ℤ) : Option (ℕ × CList V) := do
  let b ← sortFrom cmp value mode (b.count + 1) b.reset
  if b.pCurrent = b.pHead then b.pushFrontR value
  else if b.pCurrent = b.pTag then b.pushBackR value
  else do
    let e ← b.heap.read b.pCurrent
    let (x, h) := b.heap.alloc ⟨value, e.prev, b.pCurrent⟩
    let h ← h.setNext e.prev x
    let h ← h.setPrev b.pCurrent x
    some (b.count + 1, { b with heap := h, pCurrent := x, count := b.count + 1 })

end Compare

def removeByHandle (b : CList V) (handle : ℕ) : Option (CList V) :=
  if handle = 0 then some b
  else do
    let (_, b) ← { b with pCurrent := handle }.popCurrent
    some b.reset

def assignFrom : ℕ → CList V → CList V → Option (CList V × CList V)
  | 0, _, _ => none
  | fuel + 1, b, v => do
    let (r, v) ← v.next
    if r then do
      let value ← v.valueAt v.pCurrent
      let (_, b) ← b.pushBackR value
      assignFrom fuel b v
    else some (b, v)

def assign (b v : CList V) : Option (CList V × CList V) := do
  let b ← b.clear
  assignFrom (v.count + 1) b v.resetD

end CList

end Xframe.Comserv
