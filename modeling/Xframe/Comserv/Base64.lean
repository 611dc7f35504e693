import Xframe.Lib.Returns

/-! `CBase64`: the two overloads of `Encode` and `Decode`. -/

namespace Xframe.Comserv.CBase64

open Xframe.Lib

def pCodes : List UInt8 :=
  "ABCDEFGHIJKLMNOPQRSTUVWXYZabcdefghijklmnopqrstuvwxyz0123456789+/=".toList.map fun c => UInt8.ofNat c.toNat

def pMap : List UInt8 := [
  255, 255, 255, 255, 255, 255, 255, 255, 255, 255, 255, 255,
  255, 255, 255, 255, 255, 255, 255, 255, 255, 255, 255, 255,
  255, 255, 255, 255, 255, 255, 255, 255, 255, 255, 255, 255,
  255, 255, 255, 255, 255, 255, 255,  62, 255, 255, 255,  63,
   52,  53,  54,  55,  56,  57,  58,  59,  60,  61, 255, 255,
  255, 254, 255, 255, 255,   0,   1,   2,   3,   4,   5,   6,
    7,   8,   9,  10,  11,  12,  13,  14,  15,  16,  17,  18,
   19,  20,  21,  22,  23,  24,  25, 255, 255, 255, 255, 255,
  255,  26,  27,  28,  29,  30,  31,  32,  33,  34,  35,  36,
   37,  38,  39,  40,  41,  42,  43,  44,  45,  46,  47,  48,
   49,  50,  51, 255, 255, 255, 255, 255, 255, 255, 255, 255,
  255, 255, 255, 255, 255, 255, 255, 255, 255, 255, 255, 255,
  255, 255, 255, 255, 255, 255, 255, 255, 255, 255, 255, 255,
  255, 255, 255, 255, 255, 255, 255, 255, 255, 255, 255, 255,
  255, 255, 255, 255, 255, 255, 255, 255, 255, 255, 255, 255,
  255, 255, 255, 255, 255, 255, 255, 255, 255, 255, 255, 255,
  255, 255, 255, 255, 255, 255, 255, 255, 255, 255, 255, 255,
  255, 255, 255, 255, 255, 255, 255, 255, 255, 255, 255, 255,
  255, 255, 255, 255, 255, 255, 255, 255, 255, 255, 255, 255,
  255, 255, 255, 255, 255, 255, 255, 255, 255, 255, 255, 255,
  255, 255, 255, 255, 255, 255, 255, 255, 255, 255, 255, 255,
  255, 255, 255, 255]

def code (i : ℕ) : UInt8 := pCodes.getD i 0

section Encode

variable {m : Type → Type} [Monad m]

def quad (put : UInt8 → m Unit) (a b c : UInt8) : m Unit := do
  put (code (a.toNat >>> 2))
  put (code (((a.toNat &&& 3) <<< 4) + (b.toNat >>> 4)))
  put (code (((b.toNat &&& 15) <<< 2) + (c.toNat >>> 6)))
  put (code (c.toNat &&& 63))

def padded (put : UInt8 → m Unit) (a : UInt8) (second : Option UInt8) : m Unit := do
  let b := second.getD 0
  let c : ℕ := 0
  put (code (a.toNat >>> 2))
  put (code (((a.toNat &&& 3) <<< 4) + (b.toNat >>> 4)))
  put (if second.isSome then code (((b.toNat &&& 15) <<< 2) + (c >>> 6)) else 61)
  put 61

def encodeWith (put : UInt8 → m Unit) : List UInt8 → m Unit
  | [] => pure ()
  | [a] => padded put a none
  | [a, b] => padded put a (some b)
  | a :: b :: c :: pIn => do
    quad put a b c
    encodeWith put pIn

def append (c : UInt8) : StateM (List UInt8) Unit := modify fun strOut => strOut ++ [c]

def store (c : UInt8) : StateT (ℕ × List UInt8) Option Unit := fun s =>
  if s.1 < s.2.length then some ((), s.1 + 1, s.2.set s.1 c) else none

def encodeString (pIn : List UInt8) : List UInt8 := ((encodeWith append pIn).run []).2

structure Encoded where
  ok : Bool
  pOut : Option (List UInt8)
  uOutLen : ℕ

/-- The overload for a buffer, which has `*uOutLen` bytes unless it is `NULL`. No array is so long that `len2`
wraps around. -/
def encodeBuffer (pIn : List UInt8) (pOut : Option (List UInt8)) (uOutLen : ℕ) : Option Encoded :=
  match pOut with
  | none => some ⟨false, none, uOutLen⟩
  | some out =>
    if uOutLen = 0 then some ⟨false, out, uOutLen⟩
    else
      let len2 := ((pIn.length + 2) / 3) <<< 2
      if uOutLen < len2 + 1 then some ⟨false, out, uOutLen⟩
      else do
        let (_, p, out) ← (encodeWith store pIn).run (0, out)
        let (_, _, out) ← (store 0).run (p, out)
        some ⟨true, some out, p⟩

end Encode

section Decode

def char (b : UInt8) : ℤ := if b.toNat < 128 then b.toNat else b.toNat - 256

/-- An index outside of the table gives no result. -/
def lookup (b : UInt8) : Option UInt8 :=
  if 0 ≤ char b then pMap[(char b).toNat]? else none

structure Decoder where
  t : ℕ
  y : ℕ
  z : ℕ
  g : ℕ
  pOut : List UInt8

namespace Decoder

/-- A write behind the `*uOutLen` bytes of the buffer gives no result. -/
def put (s : Decoder) (v : ℕ) : Option Decoder :=
  if s.z < s.pOut.length then some { s with z := s.z + 1, pOut := s.pOut.set s.z (UInt8.ofNat v) } else none

def flush (s : Decoder) : Option Decoder := do
  let s ← s.put ((s.t >>> 16) &&& 255)
  let s ← if 1 < s.g then s.put ((s.t >>> 8) &&& 255) else some s
  let s ← if 2 < s.g then s.put (s.t &&& 255) else some s
  some { s with y := 0, t := 0 }

def take (s : Decoder) (c : UInt8) : Decoder :=
  let g := if c = 254 then (s.g + 2 ^ 64 - 1) % 2 ^ 64 else s.g
  let c := if c = 254 then 0 else c
  { s with t := (s.t <<< 6) % 2 ^ 64 ||| c.toNat, y := s.y + 1, g }

end Decoder

def decodeLoop : List UInt8 → Decoder → Option (Bool × Decoder)
  | [], s => some (true, s)
  | b :: strIn, s => do
    let c ← lookup b
    if c = 255 then decodeLoop strIn s
    else
      let s := s.take c
      if s.y = 4 then
        if s.pOut.length < (s.z + s.g) % 2 ^ 64 then some (false, s)
        else
          let s ← s.flush
          decodeLoop strIn s
      else decodeLoop strIn s

structure Decoded where
  ok : Bool
  pOut : List UInt8
  uOutLen : ℕ

def decode (strIn pOut : List UInt8) : Option Decoded := do
  let (ok, s) ← decodeLoop strIn ⟨0, 0, 0, 3, pOut⟩
  some ⟨ok, s.pOut, if ok then s.z else pOut.length⟩

end Decode

namespace Decoder

variable {s : Decoder}

@[simp] lemma take_y (c : UInt8) : (s.take c).y = s.y + 1 := rfl

@[simp] lemma take_z (c : UInt8) : (s.take c).z = s.z := rfl

@[simp] lemma take_pOut (c : UInt8) : (s.take c).pOut = s.pOut := rfl

def putAll : List ℕ → Decoder → Option Decoder
  | [], s => some s
  | v :: vs, s => s.put v >>= putAll vs

def size (g : ℕ) : ℕ := if 2 < g then 3 else if 1 < g then 2 else 1

def bytes (t : ℕ) : List ℕ := [(t >>> 16) &&& 255, (t >>> 8) &&& 255, t &&& 255]

lemma put_keeps {s' : Decoder} {v : ℕ} (h : s.put v = some s') : s'.t = s.t ∧ s'.g = s.g := by
  rw [put] at h
  split_ifs at h
  obtain ⟨⟩ := h
  exact ⟨rfl, rfl⟩

lemma flush_eq (s : Decoder) :
    s.flush = (putAll ((bytes s.t).take (size s.g)) s).map fun s => { s with y := 0, t := 0 } := by
  rw [flush, size, bytes]
  cases h₁ : s.put ((s.t >>> 16) &&& 255) with
  | none => split_ifs <;> simp [putAll, h₁]
  | some s₁ =>
    obtain ⟨ht₁, hg₁⟩ := put_keeps h₁
    cases h₂ : s₁.put ((s.t >>> 8) &&& 255) with
    | none =>
      split_ifs with htwo hone
      · simp [putAll, h₁, h₂, ht₁, hg₁, show 1 < s.g by omega]
      · simp [putAll, h₁, h₂, ht₁, hg₁, hone]
      · simp [putAll, h₁, hg₁, htwo, hone]
    | some s₂ =>
      obtain ⟨ht₂, hg₂⟩ := put_keeps h₂
      split_ifs with htwo hone
      · cases h₃ : s₂.put (s.t &&& 255) with
        | none => simp [putAll, h₁, h₂, h₃, ht₁, hg₁, ht₂, hg₂, htwo, show 1 < s.g by omega]
        | some s₃ => simp [putAll, h₁, h₂, h₃, ht₁, hg₁, ht₂, hg₂, htwo, show 1 < s.g by omega]
      · simp [putAll, h₁, h₂, ht₁, hg₁, hg₂, htwo, hone]
      · simp [putAll, h₁, hg₁, htwo, hone]

lemma size_le (g : ℕ) : size g ≤ 3 := by
  rw [size]
  split_ifs
  all_goals omega

end Decoder

end Xframe.Comserv.CBase64
