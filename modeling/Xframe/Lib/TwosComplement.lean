import Mathlib.Tactic

/-! Numbers in base 256, high digit first, where the top bit of the first byte is the sign. -/

namespace Xframe.Lib.TwosComplement

def unsigned : List UInt8 → ℕ
  | [] => 0
  | b :: bs => b.toNat * 256 ^ bs.length + unsigned bs

def value : List UInt8 → ℤ
  | [] => 0
  | b :: bs => (if b.toNat < 128 then (b.toNat : ℤ) else b.toNat - 256) * 256 ^ bs.length + unsigned bs

def Redundant (b c : UInt8) : Prop := b = 0 ∧ c.toNat < 128 ∨ b = 255 ∧ 128 ≤ c.toNat

instance (b c : UInt8) : Decidable (Redundant b c) := inferInstanceAs (Decidable (_ ∨ _))

def Minimal : List UInt8 → Prop
  | b :: c :: _ => ¬Redundant b c
  | [_] => True
  | [] => False

variable {b c : UInt8} {bs cs : List UInt8}

lemma unsigned_lt (bs : List UInt8) : unsigned bs < 256 ^ bs.length := by
  induction bs with
  | nil => simp [unsigned]
  | cons b bs ih =>
    have hb := b.toNat_lt
    rw [unsigned, List.length_cons, pow_succ]
    nlinarith

lemma value_lt (b : UInt8) (bs : List UInt8) : value (b :: bs) < 128 * 256 ^ bs.length := by
  have hlt : (unsigned bs : ℤ) < 256 ^ bs.length := by
    exact_mod_cast unsigned_lt bs
  have hpow : (0 : ℤ) < 256 ^ bs.length := by positivity
  have hb := b.toNat_lt
  rw [value]
  split_ifs with hsign
  · have hdigit : (b.toNat : ℤ) ≤ 127 := by omega
    nlinarith
  · have hdigit : (b.toNat : ℤ) - 256 ≤ -1 := by omega
    nlinarith

lemma le_value (b : UInt8) (bs : List UInt8) : -(128 * 256 ^ bs.length) ≤ value (b :: bs) := by
  have hpow : (0 : ℤ) < 256 ^ bs.length := by positivity
  rw [value]
  split_ifs with hsign
  · have hdigit : (0 : ℤ) ≤ b.toNat := by omega
    nlinarith
  · have hdigit : (-128 : ℤ) ≤ (b.toNat : ℤ) - 256 := by omega
    nlinarith

lemma value_redundant (h : Redundant b c) (bs : List UInt8) : value (b :: c :: bs) = value (c :: bs) := by
  rw [value, value, unsigned, List.length_cons, pow_succ]
  rcases h with ⟨rfl, hc⟩ | ⟨rfl, hc⟩
  · rw [if_pos hc]
    simp
  · have h255 : (255 : UInt8).toNat = 255 := rfl
    rw [if_neg (by omega), if_neg (by omega), h255]
    push_cast
    ring

lemma value_outside (h : ¬Redundant b c) (bs : List UInt8) :
    128 * 256 ^ bs.length ≤ value (b :: c :: bs) ∨ value (b :: c :: bs) < -(128 * 256 ^ bs.length) := by
  have hlt : (unsigned bs : ℤ) < 256 ^ bs.length := by
    exact_mod_cast unsigned_lt bs
  have hpow : (0 : ℤ) < 256 ^ bs.length := by positivity
  have hb := b.toNat_lt
  have hc := c.toNat_lt
  have hzero : b = 0 ↔ b.toNat = 0 := by
    rw [← UInt8.toNat_inj, UInt8.toNat_zero]
  have hfull : b = 255 ↔ b.toNat = 255 := UInt8.toNat_inj.symm
  rw [Redundant, hzero, hfull] at h
  rw [value, unsigned, List.length_cons, pow_succ]
  push_cast
  split_ifs with hsign
  · left
    have hdigits : (128 : ℤ) ≤ b.toNat * 256 + c.toNat := by omega
    nlinarith
  · right
    have hdigits : ((b.toNat : ℤ) - 256) * 256 + c.toNat ≤ -129 := by omega
    nlinarith

theorem Minimal.le_length (h : Minimal bs) (hcs : cs ≠ []) (heq : value cs = value bs) : bs.length ≤ cs.length := by
  by_contra hlt
  match cs, bs, h with
  | c' :: cs, [b], _ => simp at hlt
  | c' :: cs, b :: c :: bs, h =>
    simp only [List.length_cons] at hlt
    have hpow : (256 : ℤ) ^ cs.length ≤ 256 ^ bs.length := pow_le_pow_right₀ (by norm_num) (by omega)
    have hupper := value_lt c' cs
    have hlower := le_value c' cs
    rcases value_outside h bs with hlarge | hsmall
    · omega
    · omega

end Xframe.Lib.TwosComplement
