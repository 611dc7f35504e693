import Xframe.Comserv.SocketRecv
import Xframe.Msg.Uri

/-! Integers and strings on the wire: `ENCODE_INT`, `DECODE_INT` and the encoders of `CStr`. -/

namespace Xframe.Comserv

@[irreducible]
def toInt (n : ℤ) : ℤ := (n + 2 ^ 31) % 2 ^ 32 - 2 ^ 31

end Xframe.Comserv

namespace Xframe.Transport

open Xframe.Comserv Xframe.Msg

def encodeInt (n : ℤ) : List UInt8 := CSocket.htonl (TMsgAddress.uint n)

def decodeInt : List UInt8 → Option (ℤ × List UInt8)
  | a :: b :: c :: d :: buf => some (CSocket.ntohl [a, b, c, d], buf)
  | _ => none

def encodeStr (s : CStr) : List UInt8 := encodeInt s.length ++ s

/-- No block has this size as an `int`, so that `resize` of a new string throws before anything is read. -/
def Unallocatable (length : ℤ) : Prop := 31 < length ∧ toInt ((length / 32 + 1) * 32) < 0

instance (length : ℤ) : Decidable (Unallocatable length) := inferInstanceAs (Decidable (_ ∧ _))

lemma unallocatable_iff {n : ℤ} (h : n < 2 ^ 31) : Unallocatable n ↔ 2 ^ 31 - 32 ≤ n := by
  rw [Unallocatable, toInt]
  omega

/-- `decode` of a new `CStr`. -/
def decodeStr (buf : List UInt8) : Option (CStr × List UInt8) := do
  let (length, buf) ← decodeInt buf
  if Unallocatable length then none
  else if 0 ≤ length ∧ length ≤ buf.length then some (buf.take length.toNat, buf.drop length.toNat)
  else none

/-- `size`, which is this number as an `int`: of at most `2 ^ 31 - 5` bytes it is right. -/
def sizeStr (s : CStr) : ℤ := 4 + s.length

lemma ntohl_htonl {n : ℕ} (h : n < 2 ^ 32) :
    CSocket.ntohl (CSocket.htonl n) = if n < 2 ^ 31 then (n : ℤ) else n - 2 ^ 32 := by
  simp only [CSocket.ntohl, CSocket.htonl, List.foldl_cons, List.foldl_nil, UInt8.toNat_ofNat']
  split_ifs <;> omega

lemma decodeInt_lt {buf rest : List UInt8} {n : ℤ} (h : decodeInt buf = some (n, rest)) : n < 2 ^ 31 := by
  match buf, h with
  | a :: b :: c :: d :: _, h =>
    obtain ⟨rfl, -⟩ := Prod.mk.inj (Option.some.inj h)
    have ha := a.toNat_lt
    have hb := b.toNat_lt
    have hc := c.toNat_lt
    have hd := d.toNat_lt
    simp only [CSocket.ntohl, List.foldl_cons, List.foldl_nil]
    split_ifs <;> omega

lemma decodeInt_encodeInt (n : ℤ) (buf : List UInt8) :
    decodeInt (encodeInt n ++ buf) = some (CSocket.ntohl (encodeInt n), buf) := rfl

lemma ntohl_encodeInt {n : ℤ} (h0 : 0 ≤ n) (h : n < 2 ^ 31) : CSocket.ntohl (encodeInt n) = n := by
  rw [encodeInt, TMsgAddress.uint, ntohl_htonl (by omega), if_pos (by omega)]
  omega

lemma uint_ntohl_encodeInt {n : ℕ} (h : n < 2 ^ 32) : TMsgAddress.uint (CSocket.ntohl (encodeInt n)) = n := by
  rw [encodeInt, TMsgAddress.uint, TMsgAddress.uint, ntohl_htonl (by omega)]
  split_ifs <;> omega

lemma ntohl_encodeInt_eq_zero {n : ℕ} (h : n < 2 ^ 32) : CSocket.ntohl (encodeInt n) = 0 ↔ n = 0 := by
  rw [encodeInt, TMsgAddress.uint, ntohl_htonl (by omega)]
  split_ifs <;> omega

lemma length_encodeInt (n : ℤ) : (encodeInt n).length = 4 := rfl

lemma length_encodeStr (s : CStr) : (encodeStr s).length = 4 + s.length := by
  rw [encodeStr, List.length_append, length_encodeInt]

lemma decodeStr_encodeStr {s : CStr} (h : s.length < 2 ^ 31) (buf : List UInt8) :
    decodeStr (encodeStr s ++ buf) = if Unallocatable s.length then none else some (s, buf) := by
  rw [decodeStr, encodeStr, List.append_assoc, decodeInt_encodeInt, ntohl_encodeInt (by omega) (by omega)]
  simp

lemma decodeStr_of_short {s : CStr} (h : (s.length : ℤ) < 2 ^ 31 - 32) (buf : List UInt8) :
    decodeStr (encodeStr s ++ buf) = some (s, buf) := by
  rw [decodeStr_encodeStr (by omega), if_neg]
  rw [unallocatable_iff (by omega)]
  omega

end Xframe.Transport
