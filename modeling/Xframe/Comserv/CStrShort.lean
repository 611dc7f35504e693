import Xframe.Comserv.StringCodec

/-! `CStrShort`, whose code has the length in one byte. `decode` does not step over that byte. -/

namespace Xframe.Comserv.CStrShort

open Xframe.Lib Xframe.Lib.Act
open CStrObject hiding size encode decode

def size (s : CStrObject) : ℤ := toInt (1 + s.length)

def encode : Op (List UInt8) := do
  let s ← this
  let shortLen := if 255 < s.length then 255 else s.length
  let src ← read 0 shortLen
  pure (UInt8.ofNat shortLen.toNat :: src)

def decode (noise : ℕ → UInt8) (buf : List UInt8) : Op (List UInt8) :=
  match buf with
  | [] => fault
  | c :: _ => do
    let length : ℤ := c.toNat
    growTo noise length
    setLength length
    let src ← argument buf length
    write 0 src
    write length [0]
    pure (buf.drop length.toNat)

variable {m t : CStrMem} {E : CStrMem → Prop}

lemma encode_ends (hm : Valid m) (h : m.str.length ≤ 255) :
    Ends encode m (fun code t => code = UInt8.ofNat m.str.length.toNat :: m.content ∧ m = t) E := by
  obtain ⟨L, C, b, hview, hf, hL, hle, -⟩ := hm
  have hsize := hf.size
  rw [hview.length] at h
  rw [encode]
  refine (this_ends hview.state).bind ?_
  rintro _ t ⟨rfl, rfl, h'⟩
  rw [hview.length, hview.content, if_neg (by omega)]
  refine (read_ends h' le_rfl hL (by omega)).bind ?_
  rintro src _ ⟨rfl, rfl⟩
  exact ends_pure ⟨rfl, rfl⟩

lemma decode_ends (noise : ℕ → UInt8) (ht : Valid t) {c : UInt8} {buf : List UInt8} (h : c.toNat ≤ buf.length) :
    Ends (decode noise (c :: buf)) t (fun left u => left = (c :: buf).drop c.toNat ∧ u.str.length = c.toNat ∧
      u.content = (c :: buf).take c.toNat) fun _ => False := by
  have hc := c.toNat_lt
  have hroom : c.toNat ≤ (c :: buf).length := h.trans (Nat.le_succ _)
  rw [decode]
  refine (fetch_ends noise ht hroom (by omega) _).mono (fun _ _ hu => hu.1) fun _ hover => ?_
  have hlong := hover.2
  omega

def Restores (noise : ℕ → UInt8) (m t : CStrMem) (code rest : List UInt8) : Prop :=
  Ends (decode noise (code ++ rest)) t
    (fun left u => left = rest ∧ u.str.length = m.str.length ∧ u.content = m.content) fun _ => False

lemma not_restores (noise : ℕ → UInt8) (hm : Valid m) (h : m.str.length ≤ 255) (ht : Valid t) (rest : List UInt8) :
    ¬Restores noise m t (UInt8.ofNat m.str.length.toNat :: m.content) rest := by
  intro hr
  have h0 := (CStrObject.length_lt hm).1
  have hlen := CStrObject.length_content hm
  have hbyte : (UInt8.ofNat m.str.length.toNat).toNat = m.content.length := by
    have hsmall : m.str.length.toNat < 2 ^ 8 := by
      omega
    rw [UInt8.toNat_ofNat_of_lt' hsmall]
    omega
  have hroom : (UInt8.ofNat m.str.length.toNat).toNat ≤ (m.content ++ rest).length := by
    rw [hbyte, List.length_append]
    omega
  obtain ⟨left, u, hrun, hleft, -, -⟩ := (decode_ends noise ht hroom).done
  rw [Restores, Ends, List.cons_append, hrun] at hr
  have hcount : left.length = rest.length := congrArg List.length hr.1
  rw [hleft, List.length_drop, hbyte, List.length_cons, List.length_append] at hcount
  omega

theorem encode_never_restored (noise : ℕ → UInt8) (hm : Valid m) (h : m.str.length ≤ 255) (ht : Valid t)
    (rest : List UInt8) : Ends encode m (fun code u => m = u ∧ (code.length : ℤ) = size m.str ∧
      ¬Restores noise m t code rest) fun _ => False := by
  have h0 := (CStrObject.length_lt hm).1
  refine (encode_ends hm h).mono ?_ fun _ hf => hf
  rintro _ u ⟨rfl, rfl⟩
  refine ⟨rfl, ?_, not_restores noise hm h ht rest⟩
  rw [List.length_cons, size, toInt_eq (by omega) (by omega), ← CStrObject.length_content hm]
  push_cast
  ring

theorem hi_never_restored : Ends encode StrObject.hi (fun code u => StrObject.hi = u ∧
    (code.length : ℤ) = size StrObject.hi.str ∧ ¬Restores (fun _ => 7) StrObject.hi StrObject.empty code [1])
    fun _ => False := by
  have hshort : StrObject.hi.str.length ≤ 255 := by
    decide
  exact encode_never_restored _ StrObject.hi_valid hshort StrObject.empty_valid [1]

theorem hi_moved_by_one_byte : encode StrObject.hi = some (.done [2, 104, 105], StrObject.hi) ∧
    ¬Restores (fun _ => 7) StrObject.hi StrObject.empty [2, 104, 105] [1] := by
  have hshort : StrObject.hi.str.length ≤ 255 := by
    decide
  have hcode : encode StrObject.hi = some (.done [2, 104, 105], StrObject.hi) := by
    rfl
  exact ⟨hcode, not_restores _ StrObject.hi_valid hshort StrObject.empty_valid [1]⟩

end Xframe.Comserv.CStrShort
