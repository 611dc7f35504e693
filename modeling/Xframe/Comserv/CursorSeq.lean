import Mathlib.Data.List.TakeWhile
import Xframe.Comserv.CList

/-! Sequences with a cursor, what `CList` is for: elements with their handles, split at the cursor.
The operations follow the comments of `clist.h`. -/

namespace Xframe.Comserv

open Xframe.Lib
open CList (Answer Ref)

/-- The cursor is on the first element of `after`, or off the sequence when there is none. `fresh` is
the handle of the next element. -/
structure CursorSeq (V : Type) where
  before : List (ℕ × V)
  after : List (ℕ × V)
  fresh : ℕ

namespace CursorSeq

variable {V : Type}

def empty : CursorSeq V := ⟨[], [], 2⟩

def items (s : CursorSeq V) : List (ℕ × V) := s.before ++ s.after

def values (s : CursorSeq V) : List V := s.items.map Prod.snd

def here (s : CursorSeq V) : Option V := s.after.head?.map Prod.snd

def toFirst (s : CursorSeq V) : CursorSeq V := { s with before := [], after := s.items }

def toLast (s : CursorSeq V) : CursorSeq V :=
  { s with before := s.items.dropLast, after := s.items.getLast?.toList }

def off (s : CursorSeq V) : CursorSeq V := { s with before := s.items, after := [] }

@[simp] lemma toFirst_items (s : CursorSeq V) : s.toFirst.items = s.items := rfl

@[simp] lemma toLast_items (s : CursorSeq V) : s.toLast.items = s.items := by
  change s.items.dropLast ++ s.items.getLast?.toList = s.items
  induction s.items using List.reverseRecOn with
  | nil => rfl
  | append_singleton l x => simp

lemma toLast_congr {s t : CursorSeq V} (hi : s.items = t.items) (hf : s.fresh = t.fresh) :
    s.toLast = t.toLast := by
  rw [toLast, toLast, hi, hf]

@[simp] lemma off_items (s : CursorSeq V) : s.off.items = s.items := List.append_nil _

lemma headAddr_toLast (s : CursorSeq V) (tag : ℕ) : headAddr tag s.toLast.after = lastAddr tag s.items := by
  rw [toLast]
  induction s.items using List.reverseRecOn with
  | nil => rfl
  | append_singleton l x => simp

def deref (s : CursorSeq V) : Ref V → Option V
  | .outside v => some v
  | .node p => s.items.lookup p

def seek (s : CursorSeq V) (pos : ℤ) : Bool × CursorSeq V :=
  if 0 ≤ pos ∧ pos < s.items.length then
    (true, { s with before := s.items.take pos.toNat, after := s.items.drop pos.toNat })
  else (false, s)

def next (s : CursorSeq V) : Bool × CursorSeq V :=
  match s.after with
  | [] => (!s.items.isEmpty, s.toFirst)
  | [_] => (false, s)
  | x :: y :: r => (true, { s with before := s.before ++ [x], after := y :: r })

def prev (s : CursorSeq V) : Bool × CursorSeq V :=
  match s.before.getLast? with
  | none => (false, s)
  | some x => (true, { s with before := s.before.dropLast, after := x :: s.after })

def nextD (s : CursorSeq V) : Bool × CursorSeq V :=
  if s.items.isEmpty then (false, s)
  else (true, if s.next.1 then s.next.2 else s.toFirst)

def prevD (s : CursorSeq V) : Bool × CursorSeq V :=
  if s.items.isEmpty then (false, s)
  else (true, if s.prev.1 then s.prev.2 else s.toLast)

def front (s : CursorSeq V) : Bool × CursorSeq V := (!s.items.isEmpty, s.toFirst)

def back (s : CursorSeq V) : Bool × CursorSeq V := (!s.items.isEmpty, s.toLast)

def pushFront (s : CursorSeq V) (value : V) : CursorSeq V :=
  ⟨[], (s.fresh, value) :: s.items, s.fresh + 1⟩

def pushBack (s : CursorSeq V) (value : V) : CursorSeq V :=
  ⟨s.items, [(s.fresh, value)], s.fresh + 1⟩

@[simp] lemma pushFront_items (s : CursorSeq V) (value : V) :
    (s.pushFront value).items = (s.fresh, value) :: s.items := rfl

@[simp] lemma pushBack_items (s : CursorSeq V) (value : V) :
    (s.pushBack value).items = s.items ++ [(s.fresh, value)] := rfl

def popFront (s : CursorSeq V) : CursorSeq V := { s with before := [], after := s.items.tail }

def popBack (s : CursorSeq V) : CursorSeq V :=
  toLast { s with before := s.items.dropLast, after := [] }

def popCurrent (s : CursorSeq V) : ℕ × CursorSeq V :=
  match s.after with
  | [] => (0, s)
  | [_] => (s.before.length, toLast { s with after := [] })
  | _ :: y :: r => (s.before.length + (r.length + 1), { s with after := y :: r })

lemma popCurrent_items (s : CursorSeq V) : s.popCurrent.2.items = s.before ++ s.after.tail := by
  rw [popCurrent]
  match ha : s.after with
  | [] => simp [items, ha]
  | [x] =>
    rw [toLast_items]
    rfl
  | x :: y :: r => rfl

@[simp] lemma popCurrent_fresh (s : CursorSeq V) : s.popCurrent.2.fresh = s.fresh := by
  rw [popCurrent]
  split <;> rfl

def put (s : CursorSeq V) (value : V) : CursorSeq V :=
  match s.after with
  | [] => s
  | x :: r => { s with after := (x.1, value) :: r }

def clear (s : CursorSeq V) : CursorSeq V := { s with before := [], after := [] }

def removeByHandle (s : CursorSeq V) (handle : ℕ) : CursorSeq V :=
  if handle = 0 then s
  else { s with before := [], after := s.items.filter fun x => x.1 ≠ handle }

def assign (s t : CursorSeq V) : CursorSeq V × CursorSeq V :=
  (t.values.foldl pushBack s.clear, t.toLast)

section Compare

variable (cmp : Compare V)

def contain (s : CursorSeq V) (value : V) : Bool × CursorSeq V :=
  (s.after.any fun x => cmp.eq x.2 value,
    { s with
      before := s.before ++ s.after.takeWhile fun x => !cmp.eq x.2 value
      after := s.after.dropWhile fun x => !cmp.eq x.2 value })

lemma contain_nil {s : CursorSeq V} (value : V) (ha : s.after = []) :
    s.contain cmp value = (false, s) := by
  obtain ⟨before, after, fresh⟩ := s
  obtain rfl : after = [] := ha
  simp [contain]

lemma contain_hit {s : CursorSeq V} (value : V) {x : ℕ × V} {r : List (ℕ × V)} (ha : s.after = x :: r)
    (hx : cmp.eq x.2 value) : s.contain cmp value = (true, s) := by
  obtain ⟨before, after, fresh⟩ := s
  obtain rfl : after = x :: r := ha
  simp [contain, hx]

lemma contain_skip {s : CursorSeq V} (value : V) {x : ℕ × V} {r : List (ℕ × V)} (ha : s.after = x :: r)
    (hx : ¬cmp.eq x.2 value) :
    s.contain cmp value = contain cmp { s with before := s.before ++ [x], after := r } value := by
  obtain ⟨before, after, fresh⟩ := s
  obtain rfl : after = x :: r := ha
  simp [contain, hx]

lemma contain_true {s : CursorSeq V} {value : V} (h : (s.contain cmp value).1) :
    ∃ l x r, s.after = l ++ x :: r ∧ cmp.eq x.2 value ∧
      (s.contain cmp value).2 = ⟨s.before ++ l, x :: r, s.fresh⟩ := by
  obtain ⟨before, after, fresh⟩ := s
  induction after generalizing before with
  | nil => simp [contain_nil] at h
  | cons x r ih =>
    by_cases hx : cmp.eq x.2 value
    · refine ⟨[], x, r, rfl, hx, ?_⟩
      rw [contain_hit cmp value rfl hx, List.append_nil]
    · rw [contain_skip cmp value rfl hx] at h ⊢
      obtain ⟨l, y, r', rfl, hy, he⟩ := ih _ h
      exact ⟨x :: l, y, r', rfl, hy, by rw [he, List.append_assoc]; rfl⟩

lemma contain_false {s : CursorSeq V} {value : V} (h : ¬(s.contain cmp value).1) :
    (∀ x ∈ s.after, ¬cmp.eq x.2 value) ∧ (s.contain cmp value).2 = s.off := by
  have hall : ∀ x ∈ s.after, ¬cmp.eq x.2 value := by simpa [contain] using h
  refine ⟨hall, ?_⟩
  have htake : s.after.takeWhile (fun x => !cmp.eq x.2 value) = s.after :=
    List.takeWhile_eq_self_iff.mpr fun x hx => by simpa using hall x hx
  have hdrop : s.after.dropWhile (fun x => !cmp.eq x.2 value) = [] :=
    List.dropWhile_eq_nil_iff.mpr fun x hx => by simpa using hall x hx
  rw [contain, htake, hdrop]
  rfl

def Dangles (s : CursorSeq V) (value : Ref V) : Prop :=
  ∃ l p v r, value = .node p ∧ s.items = l ++ (p, v) :: r ∧ cmp.eq v v ∧ ¬(r = [] ∧ ∀ y ∈ l, cmp.eq y.2 v)

def remove (s : CursorSeq V) (value : V) : ℕ × CursorSeq V :=
  (s.items.countP fun x => cmp.eq x.2 value,
    { s with before := s.items.filter fun x => !cmp.eq x.2 value, after := [] })

def passes (value : V) (mode : ℤ) (x : ℕ × V) : Bool :=
  if mode = 0 then cmp.ge value x.2 else cmp.le value x.2

def insertSort (s : CursorSeq V) (value : V) (mode : ℤ) : CursorSeq V :=
  ⟨s.items.takeWhile (passes cmp value mode),
    (s.fresh, value) :: s.items.dropWhile (passes cmp value mode), s.fresh + 1⟩

end Compare

end CursorSeq

namespace CList

inductive Op (V : Type)
  | pushFront (value : V)
  | pushBack (value : V)
  | popFront
  | popBack
  | popCurrent
  | popFrontValue
  | popBackValue
  | popCurrentValue
  | insertSort (value : V) (mode : ℤ)
  | remove (value : Ref V)
  | removeByHandle (handle : ℕ)
  | set (pos : ℤ) (value : V)
  | get (pos : ℤ)
  | reset
  | resetT
  | resetD
  | resetPos (index : ℤ)
  | front
  | back
  | next
  | prev
  | frontValue
  | backValue
  | nextValue
  | prevValue
  | nextD
  | prevD
  | current
  | contain (value : Ref V)
  | clear

variable {V : Type} (cmp : Compare V)

def Answer.ofFlag (r : Bool × CList V) : Answer V × CList V := (.flag r.1 none, r.2)

def Answer.ofLength (r : ℕ × CList V) : Answer V × CList V := (.length r.1 none, r.2)

def Answer.ofReturn (r : Option Bool × CList V) : Answer V × CList V := (⟨r.1.map Bool.toNat, none⟩, r.2)

def exec (b : CList V) : Op V → Option (Answer V × CList V)
  | .pushFront value => (b.pushFrontR value).map Answer.ofLength
  | .pushBack value => (b.pushBackR value).map Answer.ofLength
  | .popFront => b.popFront.map Answer.ofLength
  | .popBack => b.popBack.map Answer.ofLength
  | .popCurrent => b.popCurrent.map Answer.ofLength
  | .popFrontValue => b.popFrontValue
  | .popBackValue => b.popBackValue
  | .popCurrentValue => b.popCurrentValue
  | .insertSort value mode => (b.insertSort cmp value mode).map Answer.ofLength
  | .remove value => (b.remove cmp value).map Answer.ofLength
  | .removeByHandle handle => (b.removeByHandle handle).map (Prod.mk .void)
  | .set pos value => (b.set pos value).map Answer.ofFlag
  | .get pos => b.get pos
  | .reset => some (.void, b.reset)
  | .resetT => some (.void, b.resetT)
  | .resetD => some (.void, b.resetD)
  | .resetPos index => (b.resetPos index).map Answer.ofReturn
  | .front => some (Answer.ofFlag b.front)
  | .back => some (Answer.ofFlag b.back)
  | .next => b.next.map Answer.ofFlag
  | .prev => b.prev.map Answer.ofFlag
  | .frontValue => b.frontValue
  | .backValue => b.backValue
  | .nextValue => b.nextValue
  | .prevValue => b.prevValue
  | .nextD => b.nextD
  | .prevD => b.prevD
  | .current => b.current
  | .contain value => (b.contain cmp value).map Answer.ofFlag
  | .clear => b.clear.map (Prod.mk .void)

end CList

namespace CursorSeq

variable {V : Type} (cmp : Compare V)

def flag (r : Bool × CursorSeq V) : Answer V × CursorSeq V := (.flag r.1 none, r.2)

def reading (r : Bool × CursorSeq V) : Answer V × CursorSeq V :=
  (.flag r.1 (if r.1 then r.2.here else none), r.2)

def sized (s : CursorSeq V) (value : Option V) : Answer V × CursorSeq V :=
  (.length s.items.length value, s)

def step (s : CursorSeq V) : CList.Op V → Answer V × CursorSeq V
  | .pushFront value => sized (s.pushFront value) none
  | .pushBack value => sized (s.pushBack value) none
  | .popFront => sized s.popFront none
  | .popBack => sized s.popBack none
  | .popCurrent => (.length s.popCurrent.1 none, s.popCurrent.2)
  | .popFrontValue => sized s.popFront s.toFirst.here
  | .popBackValue => sized s.popBack s.toLast.here
  | .popCurrentValue => (.length s.popCurrent.1 s.here, s.popCurrent.2)
  | .insertSort value mode => sized (s.insertSort cmp value mode) none
  | .remove value =>
    (s.deref value).elim (.void, s) fun v => (.length (s.remove cmp v).1 none, (s.remove cmp v).2)
  | .removeByHandle handle => (.void, s.removeByHandle handle)
  | .set pos value =>
    (.flag (s.seek pos).1 none, if (s.seek pos).1 then (s.seek pos).2.put value else s)
  | .get pos => reading (s.seek pos)
  | .reset => (.void, s.toFirst)
  | .resetT => (.void, s.toLast)
  | .resetD => (.void, s.off)
  | .resetPos index => flag (s.seek index)
  | .front => flag s.front
  | .back => flag s.back
  | .next => flag s.next
  | .prev => flag s.prev
  | .frontValue => reading s.front
  | .backValue => reading s.back
  | .nextValue => reading s.next
  | .prevValue => reading s.prev
  | .nextD => reading s.nextD
  | .prevD => reading s.prevD
  | .current => (.flag s.here.isSome s.here, s)
  | .contain value => (s.deref value).elim (.void, s) fun v => flag (s.contain cmp v)
  | .clear => (.void, s.clear)

variable {s : CursorSeq V} {ref : Ref V} {v : V}

lemma step_remove (hv : s.deref ref = some v) :
    s.step cmp (.remove ref) = (.length (s.remove cmp v).1 none, (s.remove cmp v).2) := by
  change (s.deref ref).elim _ _ = _
  rw [hv]
  rfl

lemma step_contain (hv : s.deref ref = some v) : s.step cmp (.contain ref) = flag (s.contain cmp v) := by
  change (s.deref ref).elim _ _ = _
  rw [hv]
  rfl

end CursorSeq

end Xframe.Comserv
