import Xframe.Lib.Heap
import Xframe.Lib.Returns

/-! `CHashTable<TKey, TValue>` of `unihashtable.h`: chained buckets that grow by rehashing, and a list
through all entries in the order they were put. Every member function is run on an explicit heap;
following a link to a deleted entry, or an index behind the table, has no result. -/

namespace Xframe.Comserv

open Xframe.Lib

structure KeyFns (K : Type) where
  compareKey : K → K → Bool
  getHash : K → UInt32
  equiv : Equivalence fun a b => compareKey a b = true
  hash_eq : ∀ a b, compareKey a b = true → getHash a = getHash b

lemma nat_beq_equiv : Equivalence fun a b : ℕ => (a == b) = true :=
  ⟨fun _ => by simp, fun h => by simpa using (beq_iff_eq.mp h).symm, fun h h' => by
    simpa using (beq_iff_eq.mp h).trans (beq_iff_eq.mp h')⟩

lemma nat_hash_eq : ∀ a b : ℕ, (a == b) = true → UInt32.ofNat a = UInt32.ofNat b := by
  intro a b h
  rw [beq_iff_eq.mp h]

structure HashEntry (K V : Type) where
  hash : UInt32
  key : K
  value : V
  next : ℕ
  sPrev : ℕ
  sNext : ℕ

structure CHashTable (K V : Type) where
  heap : Heap (HashEntry K V)
  table : List ℕ
  entryCount : ℕ
  tableLength : ℕ
  modCount : ℕ
  loadFactor : Float
  threshold : ℕ
  pcurEntry : ℕ
  uicurIndex : ℕ
  seqHead : ℕ
  seqTail : ℕ

namespace CHashTable

variable {K V : Type}

def hashtableMinLength : ℕ := 8
def hashtableMaxLength : ℕ := 131072
def hashtableMinLoadfactor : Float := (0.4 : Float32).toFloat
def hashtableMaxLoadfactor : Float := (1.5 : Float32).toFloat

def thresholdOf (length : ℕ) (loadFactor : Float) : ℕ :=
  (Float.ofNat length * loadFactor).toUInt32.toNat

def initTable (length : ℕ) (loadFactor : Float) : CHashTable K V :=
  let tableLength :=
    if length < hashtableMinLength then hashtableMinLength
    else if hashtableMaxLength < length then hashtableMaxLength
    else length
  let loadFactor :=
    if loadFactor < hashtableMinLoadfactor then hashtableMinLoadfactor
    else if hashtableMaxLoadfactor < loadFactor then hashtableMaxLoadfactor
    else loadFactor
  { heap := .empty, table := List.replicate tableLength 0, entryCount := 0, tableLength, modCount := 0
    loadFactor, threshold := thresholdOf tableLength loadFactor
    pcurEntry := 0, uicurIndex := 0, seqHead := 0, seqTail := 0 }

def index (t : CHashTable K V) (hash : UInt32) : ℕ := hash.toNat % t.tableLength

def write (t : CHashTable K V) (p : ℕ) (f : HashEntry K V → HashEntry K V) : Option (CHashTable K V) :=
  (t.heap.modify p f).map fun h => { t with heap := h }

def delete (t : CHashTable K V) (p : ℕ) : Option (CHashTable K V) :=
  (t.heap.free p).map fun h => { t with heap := h }

/-- The loop that `containsKey`, `get_r`, `put_r` and `put_v` share: the first entry of a chain with
an equal key, or null. -/
def search (F : KeyFns K) (h : Heap (HashEntry K V)) (key : K) : ℕ → ℕ → Option ℕ
  | 0, _ => none
  | fuel + 1, p =>
    if p = 0 then some 0
    else do
      let e ← h.read p
      if F.compareKey key e.key then some p else search F h key fuel e.next

def find (F : KeyFns K) (t : CHashTable K V) (key : K) : Option ℕ := do
  let p ← t.table[t.index (F.getHash key)]?
  search F t.heap key (t.entryCount + 1) p

def containsKey (F : KeyFns K) (t : CHashTable K V) (key : K) : Option Bool := do
  let p ← t.find F key
  some (p ≠ 0)

def getR (F : KeyFns K) (t : CHashTable K V) (key : K) : Option (Option V) := do
  let p ← t.find F key
  if p = 0 then some none
  else do
    let e ← t.heap.read p
    some (some e.value)

def size (t : CHashTable K V) : ℕ := t.entryCount

def addSequence (t : CHashTable K V) (p : ℕ) : Option (CHashTable K V) :=
  if t.seqHead = 0 ∨ t.seqTail = 0 then do
    let t ← t.write p fun e => { e with sNext := 0, sPrev := 0 }
    some { t with seqHead := p, seqTail := p }
  else do
    let t ← t.write p fun e => { e with sNext := 0, sPrev := t.seqTail }
    let t ← t.write t.seqTail fun e => { e with sNext := p }
    some { t with seqTail := p }

def delSequence (t : CHashTable K V) (p : ℕ) : Option (CHashTable K V) := do
  let e ← t.heap.read p
  if e.sNext = 0 ∧ e.sPrev = 0 then some { t with seqHead := 0, seqTail := 0 }
  else if e.sNext = 0 then
    write { t with seqTail := e.sPrev } e.sPrev fun e => { e with sNext := 0 }
  else if e.sPrev = 0 then
    write { t with seqHead := e.sNext } e.sNext fun e => { e with sPrev := 0 }
  else do
    let t ← t.write e.sNext fun f => { f with sPrev := e.sPrev }
    t.write e.sPrev fun f => { f with sNext := e.sNext }

def moveChain (length : ℕ) : ℕ → Heap (HashEntry K V) → List ℕ → ℕ →
    Option (Heap (HashEntry K V) × List ℕ)
  | 0, _, _, _ => none
  | fuel + 1, h, table, p =>
    if p = 0 then some (h, table)
    else do
      let e ← h.read p
      let q ← table[e.hash.toNat % length]?
      let h ← h.modify p fun e => { e with next := q }
      moveChain length fuel h (table.set (e.hash.toNat % length) p) e.next

def moveChains (length fuel : ℕ) : List ℕ → Heap (HashEntry K V) → List ℕ →
    Option (Heap (HashEntry K V) × List ℕ)
  | [], h, table => some (h, table)
  | p :: oldTable, h, table => do
    let (h, table) ← moveChain length fuel h table p
    moveChains length fuel oldTable h table

def rehash (t : CHashTable K V) : Option (CHashTable K V) :=
  if hashtableMaxLength ≤ t.tableLength then some t
  else do
    let length := if hashtableMaxLength ≤ t.tableLength * 2 then hashtableMaxLength else t.tableLength * 2
    let (h, table) ← moveChains length (t.entryCount + 1) t.table t.heap (List.replicate length 0)
    some { t with
      heap := h, table := table, tableLength := length
      threshold := thresholdOf length t.loadFactor, modCount := t.modCount + 1 }

/-- A new entry at the front of its chain. Its sequence links are not initialised before
`addSequence` writes them. -/
def newEntry (t : CHashTable K V) (hash : UInt32) (key : K) (value : V) : Option (CHashTable K V) := do
  let next ← t.table[t.index hash]?
  let (p, h) := t.heap.alloc ⟨hash, key, value, next, 0, 0⟩
  addSequence { t with heap := h, table := t.table.set (t.index hash) p } p

def checkThreshold (t : CHashTable K V) : Option (CHashTable K V) :=
  if t.threshold ≤ t.entryCount then t.rehash else some t

def putEntry (F : KeyFns K) (t : CHashTable K V) (key : K) (value : V) :
    Option (Option V × CHashTable K V) := do
  let p ← t.find F key
  let t := { t with modCount := t.modCount + 1 }
  if p ≠ 0 then do
    let e ← t.heap.read p
    let t ← t.write p fun e => { e with value := value }
    some (some e.value, t)
  else do
    let t ← checkThreshold { t with entryCount := t.entryCount + 1, pcurEntry := 0, uicurIndex := 0 }
    let t ← t.newEntry (F.getHash key) key value
    some (none, t)

def putR (F : KeyFns K) (t : CHashTable K V) (key : K) (value : V) : Option (V × CHashTable K V) :=
  (t.putEntry F key value).map fun (old, t) => (old.getD value, t)

def putV (F : KeyFns K) (t : CHashTable K V) (key : K) (value : V) : Option (CHashTable K V) :=
  (t.putEntry F key value).map Prod.snd

def nextBucket (t : CHashTable K V) : ℕ → ℕ → Option (CHashTable K V)
  | 0, _ => some { t with pcurEntry := 0, uicurIndex := 0 }
  | n + 1, i => do
    let p ← t.table[i]?
    if p ≠ 0 then some { t with pcurEntry := p, uicurIndex := i } else nextBucket t n (i + 1)

def searchNextEntry (t : CHashTable K V) : Option (CHashTable K V) := do
  let e ← t.heap.read t.pcurEntry
  if e.next ≠ 0 then some { t with pcurEntry := e.next }
  else t.nextBucket (t.tableLength - (t.uicurIndex + 1)) (t.uicurIndex + 1)

def reset (t : CHashTable K V) : Option (Bool × CHashTable K V) :=
  (t.nextBucket t.tableLength 0).map fun t => (decide (t.pcurEntry ≠ 0), t)

def getNext (t : CHashTable K V) : Option (Option V × CHashTable K V) :=
  if t.pcurEntry = 0 then some (none, t)
  else do
    let e ← t.heap.read t.pcurEntry
    let t ← t.searchNextEntry
    some (some e.value, t)

def whileNext {σ : Type} (body : σ → V → Option σ) : ℕ → CHashTable K V → σ → Option (σ × CHashTable K V)
  | 0, _, _ => none
  | fuel + 1, t, s => do
    match ← t.getNext with
    | (none, t) => some (s, t)
    | (some value, t) => do
      let s ← body s value
      whileNext body fuel t s

def forEach {σ : Type} (body : σ → V → Option σ) (t : CHashTable K V) (s : σ) : Option (σ × CHashTable K V) := do
  let (_, t) ← t.reset
  whileNext body (t.entryCount + 1) t s

def leaveEntry (t : CHashTable K V) (p : ℕ) : Option (CHashTable K V) :=
  if p = t.pcurEntry then t.searchNextEntry else some t

def dropEntry (t : CHashTable K V) (p : ℕ) : Option (CHashTable K V) := do
  let t ← t.delSequence p
  let t ← t.delete p
  some { t with entryCount := t.entryCount - 1, modCount := t.modCount + 1 }

def removeBehind (F : KeyFns K) (key : K) : ℕ → CHashTable K V → ℕ → ℕ → Option (Bool × CHashTable K V)
  | 0, _, _, _ => none
  | fuel + 1, t, prev, p =>
    if p = 0 then some (false, t)
    else do
      let e ← t.heap.read p
      if F.compareKey key e.key then do
        let t ← t.leaveEntry p
        let t ← t.write prev fun f => { f with next := e.next }
        let t ← t.dropEntry p
        some (true, t)
      else removeBehind F key fuel t p e.next

def remove (F : KeyFns K) (t : CHashTable K V) (key : K) : Option (Bool × CHashTable K V) := do
  let p ← t.table[t.index (F.getHash key)]?
  if p = 0 then some (false, t)
  else do
    let e ← t.heap.read p
    if F.compareKey key e.key then do
      let t ← t.leaveEntry p
      let t ← dropEntry { t with table := t.table.set (t.index (F.getHash key)) e.next } p
      some (true, t)
    else removeBehind F key (t.entryCount + 1) t p e.next

def clearBucket (i : ℕ) : ℕ → CHashTable K V → Option (CHashTable K V)
  | 0, _ => none
  | fuel + 1, t => do
    let p ← t.table[i]?
    if p = 0 then some t
    else do
      let e ← t.heap.read p
      let t ← write { t with table := t.table.set i e.next } p fun e => { e with next := 0 }
      let t ← t.delSequence p
      let t ← t.delete p
      clearBucket i fuel t

def clearBuckets : ℕ → ℕ → CHashTable K V → Option (CHashTable K V)
  | 0, _, t => some t
  | n + 1, i, t => do
    let t ← clearBucket i (t.entryCount + 1) t
    clearBuckets n (i + 1) t

def clear (t : CHashTable K V) : Option (CHashTable K V) := do
  let t ← clearBuckets t.tableLength 0 t
  some { t with entryCount := 0, modCount := t.modCount + 1, pcurEntry := 0, uicurIndex := 0 }

inductive Op (K V : Type) where
  | put (key : K) (value : V)
  | putV (key : K) (value : V)
  | get (key : K)
  | containsKey (key : K)
  | remove (key : K)
  | clear
  | size

inductive Ret (V : Type) where
  | value (v : V)
  | found (v : Option V)
  | flag (b : Bool)
  | count (n : ℕ)
  | done

def exec (F : KeyFns K) (t : CHashTable K V) : Op K V → Option (Ret V × CHashTable K V)
  | .put key value => (t.putR F key value).map fun (v, t) => (.value v, t)
  | .putV key value => (t.putV F key value).map fun t => (.done, t)
  | .get key => (t.getR F key).map fun v => (.found v, t)
  | .containsKey key => (t.containsKey F key).map fun b => (.flag b, t)
  | .remove key => (t.remove F key).map fun (b, t) => (.flag b, t)
  | .clear => t.clear.map fun t => (.done, t)
  | .size => some (.count t.size, t)

end CHashTable

end Xframe.Comserv
