import Xframe.Comserv.Traversal

/-! `CVector<TValue>` of `cvector.h`: an array whose slots are entries of a hash table, with a size and a
count of the slots in use. Entries and values are objects on heaps of their own. -/

namespace Xframe.Comserv

open Xframe.Lib

def indexKeys : KeyFns ℕ where
  compareKey a b := a == b
  getHash := UInt32.ofNat
  equiv := nat_beq_equiv
  hash_eq := nat_hash_eq

structure VecEntry where
  value : ℕ
  prev : ℕ
  next : ℕ

/-- `ht` has the address of an entry for each index, an entry has that of its value, and `pValue` is the
address of the value that new slots get. -/
structure CVector (V : Type) where
  entries : Heap VecEntry
  values : Heap V
  ht : CHashTable ℕ ℕ
  count : ℕ
  size : ℕ
  pValue : ℕ

namespace CVector

variable {V : Type}

def new (value : V) : CVector V :=
  let (pValue, values) := Heap.empty.alloc value
  { entries := .empty, values, ht := .initTable 16 0.75, count := 0, size := 0, pValue }

def putNew (v : CVector V) (i : ℕ) (value : V) : Option (CVector V) := do
  let (pValue, values) := v.values.alloc value
  let (pEntry, entries) := v.entries.alloc ⟨pValue, 0, 0⟩
  let (_, ht) ← v.ht.putR indexKeys i pEntry
  some { v with entries, values, ht }

def grow : ℕ → ℕ → CVector V → Option (CVector V)
  | 0, _, v => some v
  | n + 1, i, v => do
    let value ← v.values.read v.pValue
    let v ← v.putNew i value
    grow n (i + 1) v

def resize (v : CVector V) (newSize : ℕ) : Option (CVector V) := do
  let v ← (if v.size < newSize then (grow (newSize - v.size) v.size v).map fun v => { v with size := newSize }
    else some v)
  some (if newSize < v.count then { v with count := newSize } else v)

def index (v : CVector V) (i : ℕ) : Option ℕ :=
  if i < v.size then do
    match ← v.ht.getR indexKeys i with
    | some pEntry =>
      if pEntry ≠ 0 then do
        let e ← v.entries.read pEntry
        some (if e.value ≠ 0 then e.value else v.pValue)
      else some v.pValue
    | none => some v.pValue
  else some v.pValue

def read (v : CVector V) (i : ℕ) : Option V := do
  let p ← v.index i
  v.values.read p

def write (v : CVector V) (i : ℕ) (value : V) : Option (CVector V) := do
  let p ← v.index i
  let values ← v.values.modify p fun _ => value
  some { v with values }

def pushBack (v : CVector V) (value : V) : Option (ℕ × CVector V) :=
  if v.count < v.size then do
    match ← v.ht.getR indexKeys v.count with
    | none => some (0, v)
    | some pEntry =>
      if pEntry = 0 then some (0, v)
      else do
        let e ← v.entries.read pEntry
        if e.value = 0 then some (0, v)
        else do
          let values ← v.values.modify e.value fun _ => value
          some (v.count + 1, { v with values, count := v.count + 1 })
  else do
    let v ← v.putNew v.count value
    some (v.count + 1, { v with size := v.size + 1, count := v.count + 1 })

def popBack (v : CVector V) : Option (ℕ × CVector V) :=
  if 0 < v.count then do
    match ← v.ht.getR indexKeys (v.count - 1) with
    | some _ => some (v.count - 1, { v with count := v.count - 1 })
    | none => some (0, v)
  else some (0, v)

def popBackValue (v : CVector V) : Option ((ℕ × Option V) × CVector V) :=
  if 0 < v.count then do
    match ← v.ht.getR indexKeys (v.count - 1) with
    | none => some ((0, none), v)
    | some pEntry =>
      if pEntry = 0 then some ((0, none), v)
      else do
        let e ← v.entries.read pEntry
        if e.value = 0 then some ((0, none), v)
        else do
          let value ← v.values.read e.value
          some ((v.count - 1, some value), { v with count := v.count - 1 })
  else some ((0, none), v)

def deleteEntry (v : CVector V) (pEntry : ℕ) : Option (CVector V) :=
  if pEntry ≠ 0 then do
    let e ← v.entries.read pEntry
    let values ← (if e.value ≠ 0 then v.values.free e.value else some v.values)
    let entries ← v.entries.free pEntry
    some { v with entries, values }
  else some v

def removeFrom : ℕ → ℕ → CVector V → Option (CVector V)
  | 0, _, v => some v
  | n + 1, i, v => do
    match ← v.ht.getR indexKeys i with
    | some pEntry =>
      let v ← v.deleteEntry pEntry
      let (_, ht) ← v.ht.remove indexKeys i
      removeFrom n (i + 1) { v with ht }
    | none => removeFrom n (i + 1) v

def remove (v : CVector V) : Option (CVector V) :=
  (removeFrom v.size 0 v).map fun v => { v with size := 0, count := 0 }

inductive Op (V : Type) where
  | resize (newSize : ℕ)
  | pushBack (value : V)
  | popBack
  | popBackValue
  | read (i : ℕ)
  | write (i : ℕ) (value : V)
  | remove

inductive Ret (V : Type) where
  | done
  | count (n : ℕ)
  | popped (n : ℕ) (value : Option V)
  | value (value : V)

def exec (v : CVector V) : Op V → Option (Ret V × CVector V)
  | .resize newSize => (v.resize newSize).map fun v => (.done, v)
  | .pushBack value => (v.pushBack value).map fun (n, v) => (.count n, v)
  | .popBack => v.popBack.map fun (n, v) => (.count n, v)
  | .popBackValue => v.popBackValue.map fun (r, v) => (.popped r.1 r.2, v)
  | .read i => (v.read i).map fun value => (.value value, v)
  | .write i value => (v.write i value).map fun v => (.done, v)
  | .remove => v.remove.map fun v => (.done, v)

end CVector

structure Filled (V : Type) where
  slots : List V
  count : ℕ
  default : V
  count_le : count ≤ slots.length

namespace Filled

variable {V : Type}

def new (default : V) : Filled V := ⟨[], 0, default, le_rfl⟩

def elements (s : Filled V) : List V := s.slots.take s.count

def resize (s : Filled V) (n : ℕ) : Filled V where
  slots := s.slots ++ List.replicate (n - s.slots.length) s.default
  count := min s.count n
  default := s.default
  count_le := by
    have hle := s.count_le
    rw [List.length_append]
    omega

def pushBack (s : Filled V) (value : V) : Filled V where
  slots := s.slots.take s.count ++ value :: s.slots.drop (s.count + 1)
  count := s.count + 1
  default := s.default
  count_le := by
    have hle := s.count_le
    rw [List.length_append, List.length_take, List.length_cons]
    omega

def popBack (s : Filled V) : Filled V :=
  { s with
    count := s.count - 1
    count_le := (Nat.sub_le _ _).trans s.count_le }

def write (s : Filled V) (i : ℕ) (value : V) : Filled V where
  slots := s.slots.set i value
  count := s.count
  default := if i < s.slots.length then s.default else value
  count_le := by
    rw [List.length_set]
    exact s.count_le

def remove (s : Filled V) : Filled V := ⟨[], 0, s.default, le_rfl⟩

def step (s : Filled V) : CVector.Op V → CVector.Ret V × Filled V
  | .resize n => (.done, s.resize n)
  | .pushBack value => (.count (s.count + 1), s.pushBack value)
  | .popBack => (.count (s.count - 1), s.popBack)
  | .popBackValue => (.popped (s.count - 1) s.elements.getLast?, s.popBack)
  | .read i => (.value (s.slots.getD i s.default), s)
  | .write i value => (.done, s.write i value)
  | .remove => (.done, s.remove)

end Filled

end Xframe.Comserv
