import Mathlib.Data.Nat.Digits.Lemmas
import Xframe.Lib.Act
import Xframe.Lib.Heap
import Xframe.Transport.Codec

/-! `CStr` of `comtypedef_vchar.C`: a string with a buffer of 32 bytes of its own that moves to the heap
when it grows. Lengths are of type `int`, and their arithmetic wraps. -/

namespace Xframe.Comserv

open Xframe.Lib Xframe.Msg

/-- `buffer` is the address of a block on the heap, or nothing for `_m_buffer`, which is `inline`. -/
structure CStrObject where
  length : ℤ
  capacity : ℤ
  buffer : Option ℕ
  inline : List UInt8

structure CStrMem where
  heap : Heap (List UInt8)
  str : CStrObject

namespace CStrMem

def block (m : CStrMem) : Option (List UInt8) :=
  match m.str.buffer with
  | none => some m.str.inline
  | some p => m.heap.read p

lemma block_inline {m : CStrMem} (h : m.str.buffer = none) : m.block = some m.str.inline := by
  rw [block, h]

lemma block_heap {m : CStrMem} {p : ℕ} (h : m.str.buffer = some p) : m.block = m.heap.read p := by
  rw [block, h]

end CStrMem

namespace CStrObject

abbrev Op (α : Type) := Act CStrMem α

def maxCStrBufferLen : ℤ := 32

def splice (b : List UInt8) (off : ℕ) (src : List UInt8) : List UInt8 :=
  b.take off ++ src ++ b.drop (off + src.length)

def read (off n : ℤ) : Op (List UInt8) := fun m =>
  match m.block with
  | none => none
  | some b =>
    if 0 ≤ off ∧ 0 ≤ n ∧ off + n ≤ b.length then some (.done ((b.drop off.toNat).take n.toNat), m) else none

def write (off : ℤ) (src : List UInt8) : Op Unit := fun m =>
  match m.block with
  | none => none
  | some b =>
    if 0 ≤ off ∧ off + src.length ≤ b.length then
      match m.str.buffer with
      | none => some (.done (), { m with str.inline := splice b off.toNat src })
      | some p => some (.done (), { m with heap := m.heap.store p (splice b off.toNat src) })
    else none

def cString (off : ℕ) : Op (List UInt8) := fun m =>
  match m.block with
  | none => none
  | some b =>
    let s := b.drop off
    if 0 ∈ s then some (.done (s.takeWhile (· ≠ 0)), m) else none

def argument (src : List UInt8) (n : ℤ) : Op (List UInt8) :=
  if 0 ≤ n ∧ n ≤ src.length then pure (src.take n.toNat) else Act.fault

def this : Op CStrObject := do
  let m ← Act.get
  pure m.str

def modify (f : CStrObject → CStrObject) : Op Unit := do
  let m ← Act.get
  Act.put { m with str := f m.str }

def setLength (n : ℤ) : Op Unit := modify fun s => { s with length := n }

def setCapacity (n : ℤ) : Op Unit := modify fun s => { s with capacity := n }

def setBuffer (p : Option ℕ) : Op Unit := modify fun s => { s with buffer := p }

def deleteBlock (p : ℕ) : Op Unit := fun m =>
  match m.heap.free p with
  | none => none
  | some heap => some (.done (), { m with heap })

section New

variable (noise : ℕ → UInt8)

/-- New memory has any content. A negative size is a huge one. -/
def newBlock (n : ℤ) : Op ℕ := do
  if n < 0 then Act.throw
  else
    let m ← Act.get
    let (p, heap) := m.heap.alloc ((List.range n.toNat).map noise)
    Act.put { m with heap }
    pure p

def resize (newCapacity : ℤ) : Op Unit := do
  let s ← this
  if newCapacity ≤ s.capacity then pure ()
  else
    let realCap := toInt ((newCapacity / maxCStrBufferLen + 1) * maxCStrBufferLen)
    let p ← newBlock noise realCap
    let src ← read 0 (s.length + 1)
    setBuffer (some p)
    write 0 src
    setCapacity (realCap - 1)
    match s.buffer with
    | none => pure ()
    | some old => deleteBlock old

def growTo (n : ℤ) : Op Unit := do
  let s ← this
  if s.capacity < n then resize noise n else pure ()

def clear : Op Unit := do
  setLength 0
  write 0 [0]

def reset : Op Unit := do
  write 0 [0]
  setLength 0

def raw : CStrObject := ⟨0, 0, none, (List.range maxCStrBufferLen.toNat).map noise⟩

def init : Op Unit := do
  setBuffer none
  write 0 [0]
  setLength 0
  setCapacity (maxCStrBufferLen - 1)

def moveTo (length : ℤ) : Op Unit := do
  let p ← newBlock noise (toInt (length + 1))
  setBuffer (some p)
  setCapacity length

/-- A `const char*` argument is given by its bytes before the zero; nothing is `NULL`, which does what the
default constructor does. -/
def new : Option (List UInt8) → Op Unit
  | none => init
  | some str => do
    let length := toInt str.length
    setLength length
    (if maxCStrBufferLen - 1 < length then moveTo noise length
      else do setBuffer none; setCapacity (maxCStrBufferLen - 1))
    let src ← argument (str ++ [0]) (length + 1)
    write 0 src

/-- Another string is given by its length and its bytes, with the zero behind them. -/
def newCopy (length : ℤ) (src : List UInt8) : Op Unit := do
  init
  setLength length
  let s ← this
  (if s.capacity < length then moveTo noise length else pure ())
  write 0 src

def decimal (val : ℤ) : List UInt8 :=
  (if val < 0 then [45] else []) ++
    if val = 0 then [48] else (Nat.digits 10 val.natAbs).reverse.map fun d => UInt8.ofNat (48 + d)

def assignInt (val : ℤ) : Op Unit := do
  write 0 (decimal val ++ [0])
  let s ← cString 0
  setLength s.length

def newInt (val : ℤ) : Op Unit := do
  setBuffer none
  write 0 [0]
  setCapacity (maxCStrBufferLen - 1)
  assignInt val

def destroy : Op Unit := do
  let s ← this
  match s.buffer with
  | none => pure ()
  | some p => deleteBlock p

def assignStr (str : Option (List UInt8)) : Op Unit := do
  let str := str.getD []
  if str = [] then reset
  else
    let len := toInt str.length
    growTo noise len
    setLength len
    let src ← argument (str ++ [0]) (len + 1)
    write 0 src
    write len [0]

def assign (length : ℤ) (src : List UInt8) : Op Unit := do
  growTo noise length
  setLength length
  write 0 src

/-- `+=` of the bytes `src`, of which the last is not counted in `l`. -/
def append (l : ℤ) (src : List UInt8) : Op Unit := do
  let s ← this
  growTo noise (toInt (s.length + l))
  write s.length src
  setLength (toInt (s.length + l))
  write (toInt (s.length + l)) [0]

def appendStr (str : List UInt8) : Op Unit := do
  let l := toInt str.length
  let src ← argument (str ++ [0]) (l + 1)
  append noise l src

def appendChar (c : UInt8) : Op Unit := append noise 1 [c]

def shlInt (i : ℤ) : Op Unit := appendStr noise (decimal i)

def nCat (str : List UInt8) : Op Unit := append noise str.length str

def set (str : List UInt8) : Op Unit := do
  growTo noise str.length
  (if str.length = 0 then reset else pure ())
  write 0 str
  write str.length [0]
  setLength str.length

def cutAt (length : ℤ) : Op Unit := do
  let s ← this
  if s.length ≤ length ∨ length < -s.length then pure ()
  else
    let n := if 0 ≤ length then length else s.length + length
    setLength n
    write n [0]

def isspace (c : UInt8) : Bool := c = 32 || 9 ≤ c && c ≤ 13

def trimmed (b : List UInt8) : ℕ → ℕ
  | 0 => 0
  | n + 1 => if isspace (b.getD n 0) then trimmed b n else n + 1

def trim : Op Unit := do
  let s ← this
  let b ← read 0 (s.capacity + 1)
  let p := (b.takeWhile isspace).length
  let rest ← cString p
  write 0 (rest ++ [0])
  setLength (s.length - p)
  let b ← read 0 (s.length - p)
  let n := trimmed b b.length
  write n [0]
  setLength n

def temporary (n : ℤ) (src : List UInt8) : Op Unit :=
  if n < 0 then Act.throw else if src.length ≤ n then pure () else Act.fault

def uricByte (c : UInt8) : List UInt8 :=
  if c = 38 then [37, 50, 54]
  else if c = 61 then [37, 51, 68]
  else if c = 43 then [37, 50, 66]
  else if c = 37 then [37, 50, 53]
  else if c = 32 then [43]
  else [c]

def uricEncode : Op Unit := do
  let s ← this
  write s.length [0]
  let r ← cString 0
  let w := r.flatMap uricByte
  temporary (toInt (s.length * 3 + 1)) (w ++ [0])
  let newLength := toInt w.length
  growTo noise newLength
  setLength newLength
  write 0 (w ++ [0])

def steal : Op (ℕ × ℤ) := do
  let s ← this
  match s.buffer with
  | some p =>
    setBuffer none
    setCapacity (maxCStrBufferLen - 1)
    reset
    pure (p, s.length)
  | none =>
    let src ← read 0 s.length
    let m ← Act.get
    let (p, heap) := m.heap.alloc (src ++ [0])
    Act.put { m with heap }
    reset
    pure (p, s.length)

def decode (buf : List UInt8) : Op (List UInt8) :=
  match Transport.decodeInt buf with
  | none => Act.fault
  | some (length, buf) => do
    growTo noise length
    setLength length
    let src ← argument buf length
    write 0 src
    write length [0]
    pure (buf.drop length.toNat)

/-- The loop of `replace` on its local string. Each turn goes behind a pattern, so `fuel` turns are enough
for that many bytes. -/
def replaceLoop (pattern replace : List UInt8) : ℕ → List UInt8 → Op Unit
  | 0, p => appendStr noise p
  | fuel + 1, p =>
    match CStr.strstr pattern p with
    | none => appendStr noise p
    | some q => do
      nCat noise (p.take q)
      appendStr noise replace
      replaceLoop pattern replace fuel (p.drop (q + pattern.length))

def bytes : Op (ℤ × List UInt8) := do
  let s ← this
  let src ← read 0 (s.length + 1)
  pure (s.length, src)

def onLocal (x : Op Unit) : Op (ℤ × List UInt8) := fun m =>
  match (do init; x; bytes) ⟨m.heap, raw noise⟩ with
  | none => none
  | some (r, l) => (destroy l).map fun d => (r, { m with heap := d.2.heap })

/-- The local string of the source lives until `*this` has its bytes, which are read before here. -/
def replace (pattern replace : List UInt8) : Op Unit := do
  let s ← cString 0
  let (length, src) ← onLocal noise (replaceLoop noise pattern replace s.length s)
  assign noise length src

end New

end CStrObject

end Xframe.Comserv
