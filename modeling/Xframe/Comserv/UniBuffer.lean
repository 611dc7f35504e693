import Mathlib.Tactic

/-! `TBuffer` of `unibuffer.h`: a ring of bytes that is filled and emptied by callbacks, and the
sequence of bytes it holds. -/

namespace Xframe.Comserv

def blit (mem : List UInt8) (dst : ℕ) (bytes : List UInt8) : List UInt8 :=
  mem.take dst ++ bytes ++ mem.drop (dst + bytes.length)

/-- The pointers are offsets into `msgBuf`; `msgBufEnd` is `size`. -/
structure TBuffer where
  msgBuf : List UInt8
  size : ℕ
  pBufHead : ℕ
  pBufTail : ℕ
  filledLength : ℕ
  freeLength : ℕ

namespace TBuffer

/-- The memory that `new char[size]` answers is not initialised. -/
def new (size : ℕ) : TBuffer := ⟨List.replicate size 0, size, 0, 0, 0, size⟩

/-- `memcpy(msgBuf + dst, msgBuf + src, n)`, as the platform has it. -/
abbrev Memcpy := (mem : List UInt8) → (dst src n : ℕ) → List UInt8

def copied (mem : List UInt8) (dst src n : ℕ) : List UInt8 := blit mem dst ((mem.drop src).take n)

/-- `memcpy` is defined when the areas do not overlap. -/
def Conforms (memcpy : Memcpy) : Prop :=
  ∀ mem dst src n, dst + n ≤ src ∨ src + n ≤ dst → src + n ≤ mem.length → dst + n ≤ mem.length →
    memcpy mem dst src n = copied mem dst src n

def rearrange (memcpy : Memcpy) (b : TBuffer) : TBuffer :=
  if b.pBufHead = 0 then b
  else
    let frontLength := b.size - b.pBufHead
    let endLength := b.pBufTail
    let msgBuf :=
      if b.pBufHead < b.pBufTail then memcpy b.msgBuf 0 b.pBufHead b.filledLength
      else if frontLength ≤ b.freeLength then
        memcpy (copied b.msgBuf frontLength 0 endLength) 0 b.pBufHead frontLength
      else blit (memcpy b.msgBuf 0 b.pBufHead frontLength) frontLength (b.msgBuf.take endLength)
    { b with msgBuf, pBufHead := 0, pBufTail := b.filledLength }

variable {σ : Type}

def advanceHead (b : TBuffer) (ret : ℤ) (length : ℕ) : TBuffer :=
  if 0 < ret ∧ ret ≤ length then
    { b with
      pBufHead := b.pBufHead + ret.toNat
      filledLength := b.filledLength - ret.toNat
      freeLength := b.freeLength + ret.toNat }
  else b

def popHead (b : TBuffer) (pop : σ → List UInt8 → ℕ → ℤ × σ) (s : σ) (length : ℕ) : ℤ × TBuffer × σ :=
  let (ret, s) := pop s (b.msgBuf.drop b.pBufHead) length
  (ret, b.advanceHead ret length, s)

def popSplit (b : TBuffer) (pop : σ → List UInt8 → ℕ → ℤ × σ) (s : σ) (length : ℕ) : ℤ × TBuffer × σ :=
  let lengthTemp := b.size - b.pBufHead
  let (ret, s) := pop s (b.msgBuf.drop b.pBufHead) lengthTemp
  if ret = lengthTemp then
    let (retOfSecondRead, s) := pop s b.msgBuf (length - lengthTemp)
    if 0 < retOfSecondRead ∧ retOfSecondRead ≤ (length - lengthTemp : ℕ) then
      let ret := lengthTemp + retOfSecondRead.toNat
      (ret, { b with
        pBufHead := retOfSecondRead.toNat
        filledLength := b.filledLength - ret
        freeLength := b.freeLength + ret }, s)
    else (ret, b, s)
  else (ret, b.advanceHead ret lengthTemp, s)

def restart (b : TBuffer) : TBuffer :=
  if b.filledLength = 0 then { b with pBufHead := 0, pBufTail := 0 } else b

def readFromBuffer (b : TBuffer) (pop : σ → List UInt8 → ℕ → ℤ × σ) (s : σ) (length : ℕ) : ℤ × TBuffer × σ :=
  if length = 0 then (0, b, s)
  else if b.filledLength = 0 then (0, b, s)
  else
    let length := min length b.filledLength
    let (ret, b, s) :=
      if b.pBufHead < b.pBufTail then b.popHead pop s length
      else if length ≤ b.size - b.pBufHead then b.popHead pop s length
      else b.popSplit pop s length
    (ret, b.restart, s)

def store (b : TBuffer) (dst : ℕ) (bytes : List UInt8) : TBuffer := { b with msgBuf := blit b.msgBuf dst bytes }

def advanceTail (b : TBuffer) (ret : ℤ) (length : ℕ) : TBuffer :=
  if 0 < ret ∧ ret ≤ length then
    { b with
      pBufTail := b.pBufTail + ret.toNat
      filledLength := b.filledLength + ret.toNat
      freeLength := b.freeLength - ret.toNat }
  else b

def pushTail (b : TBuffer) (push : σ → ℕ → ℕ → ℤ × List UInt8 × σ) (s : σ) (length : ℕ) : ℤ × TBuffer × σ :=
  let (ret, bytes, s) := push s 0 length
  (ret, (b.store b.pBufTail bytes).advanceTail ret length, s)

def pushSplit (b : TBuffer) (push : σ → ℕ → ℕ → ℤ × List UInt8 × σ) (s : σ) (length : ℕ) : ℤ × TBuffer × σ :=
  let lengthTemp := b.size - b.pBufTail
  let (ret, bytes, s) := push s 0 lengthTemp
  let b := b.store b.pBufTail bytes
  if ret = lengthTemp then
    let (retOfSecondWrite, bytes, s) := push s lengthTemp (length - lengthTemp)
    let b := b.store 0 bytes
    if 0 < retOfSecondWrite ∧ retOfSecondWrite ≤ (length - lengthTemp : ℕ) then
      let ret := lengthTemp + retOfSecondWrite.toNat
      (ret, { b with
        pBufTail := retOfSecondWrite.toNat
        filledLength := b.filledLength + ret
        freeLength := b.freeLength - ret }, s)
    else (ret, b, s)
  else (ret, b.advanceTail ret lengthTemp, s)

def writeIntoBuffer (b : TBuffer) (push : σ → ℕ → ℕ → ℤ × List UInt8 × σ) (s : σ) (length : ℕ) :
    ℤ × TBuffer × σ :=
  if length = 0 then (0, b, s)
  else if b.freeLength = 0 then (0, b, s)
  else
    let length := min length b.freeLength
    if b.pBufTail < b.pBufHead then b.pushTail push s length
    else if length ≤ b.size - b.pBufTail then b.pushTail push s length
    else b.pushSplit push s length

def contents (b : TBuffer) : List UInt8 :=
  if b.filledLength = 0 then []
  else if b.pBufHead < b.pBufTail then (b.msgBuf.drop b.pBufHead).take b.filledLength
  else b.msgBuf.drop b.pBufHead ++ b.msgBuf.take b.pBufTail

structure Ok (b : TBuffer) : Prop where
  memory : b.msgBuf.length = b.size
  sum : b.filledLength + b.freeLength = b.size
  head : b.pBufHead ≤ b.size
  tail : b.pBufTail ≤ b.size
  empty : b.filledLength = 0 → b.pBufHead = 0 ∧ b.pBufTail = 0
  straight : b.pBufHead < b.pBufTail → b.filledLength = b.pBufTail - b.pBufHead
  wrapped : b.pBufTail ≤ b.pBufHead → 0 < b.filledLength →
    b.filledLength = b.size - b.pBufHead + b.pBufTail

lemma new_ok (size : ℕ) : (new size).Ok :=
  ⟨List.length_replicate, Nat.zero_add _, Nat.zero_le _, Nat.zero_le _, fun _ => ⟨rfl, rfl⟩,
    fun h => absurd h (lt_irrefl 0), fun _ h => absurd h (lt_irrefl 0)⟩

@[simp] lemma new_contents (size : ℕ) : (new size).contents = [] := rfl

end TBuffer

end Xframe.Comserv
