import Xframe.Comserv.Base64

/-! What `Encode` gives out is what `Decode` takes back. -/

namespace Xframe.Comserv.CBase64

open Xframe.Lib

def text : List UInt8 → List UInt8
  | [] => []
  | [a] => [code (a.toNat >>> 2), code ((a.toNat &&& 3) <<< 4), 61, 61]
  | [a, b] =>
    [code (a.toNat >>> 2), code (((a.toNat &&& 3) <<< 4) + (b.toNat >>> 4)), code ((b.toNat &&& 15) <<< 2), 61]
  | a :: b :: c :: x =>
    [code (a.toNat >>> 2), code (((a.toNat &&& 3) <<< 4) + (b.toNat >>> 4)),
      code (((b.toNat &&& 15) <<< 2) + (c.toNat >>> 6)), code (c.toNat &&& 63)] ++ text x

variable {m : Type → Type} [Monad m] [LawfulMonad m]

lemma encodeWith_eq_forM (put : UInt8 → m Unit) (x : List UInt8) : encodeWith put x = forM (text x) put := by
  induction x using text.induct with
  | case1 => simp [encodeWith, text]
  | case2 a => simp [encodeWith, padded, text]
  | case3 a b => simp [encodeWith, padded, text]
  | case4 a b c x ih => simp [encodeWith, quad, text, ih]

lemma length_text (x : List UInt8) : (text x).length = 4 * ((x.length + 2) / 3) := by
  induction x using text.induct with
  | case1 => simp [text]
  | case2 a => simp [text]
  | case3 a b => simp [text]
  | case4 a b c x ih =>
    rw [text, List.length_append, ih]
    simp only [List.length_cons, List.length_nil]
    omega

lemma append_run (l s : List UInt8) : (forM l append).run s = ((), s ++ l) := by
  induction l generalizing s with
  | nil => simp [StateT.run]; rfl
  | cons c l ih =>
    rw [List.forM_cons, StateT.run_bind]
    change (forM l append).run (s ++ [c]) = _
    rw [ih, List.append_assoc, List.singleton_append]

lemma encodeString_eq (x : List UInt8) : encodeString x = text x := by
  rw [encodeString, encodeWith_eq_forM, append_run, List.nil_append]

lemma store_run {l out : List UInt8} {p : ℕ} (h : p + l.length ≤ out.length) :
    (forM l store).run (p, out) = some ((), p + l.length, out.take p ++ l ++ out.drop (p + l.length)) := by
  induction l generalizing p out with
  | nil =>
    rw [List.append_nil, List.length_nil, Nat.add_zero, List.take_append_drop]
    rfl
  | cons c l ih =>
    rw [List.length_cons] at h
    have hp : p < out.length := by omega
    have hput : (store c).run (p, out) = some ((), p + 1, out.set p c) := if_pos hp
    rw [List.forM_cons, StateT.run_bind, hput]
    change (forM l store).run (p + 1, out.set p c) = _
    have htake : (out.set p c).take (p + 1) = out.take p ++ [c] := by
      simp [List.take_add_one, hp, List.take_set_of_le]
    have hdrop : (out.set p c).drop (p + 1 + l.length) = out.drop (p + 1 + l.length) :=
      List.drop_set_of_lt (by omega)
    rw [ih (by rw [List.length_set]; omega), htake, hdrop, List.length_cons, Nat.add_right_comm, Nat.add_assoc p,
      List.append_assoc (out.take p), List.singleton_append]

lemma lookup_code : ∀ i < 64, lookup (code i) = some (UInt8.ofNat i) := by
  decide +kernel

lemma lookup_pad : lookup 61 = some 254 := by
  decide +kernel

lemma sextet_toNat : ∀ i < 64, (UInt8.ofNat i).toNat = i := by
  decide

variable {s : Decoder}

namespace Decoder

lemma take_of_lt {i : ℕ} (hi : i < 64) (ht : s.t < 2 ^ 58) :
    s.take (UInt8.ofNat i) = { s with t := 64 * s.t + i, y := s.y + 1 } := by
  have hne : UInt8.ofNat i ≠ 254 := by
    intro h
    have hnat := congrArg UInt8.toNat h
    rw [sextet_toNat i hi] at hnat
    exact absurd hnat (by change i ≠ 254; omega)
  have hval : (s.t <<< 6) % 2 ^ 64 ||| i = 64 * s.t + i := by
    rw [Nat.mod_eq_of_lt (by omega), ← Nat.shiftLeft_add_eq_or_of_lt hi]
    omega
  rw [take, if_neg hne, if_neg hne, sextet_toNat i hi, hval]

lemma take_pad (ht : s.t < 2 ^ 58) (hg : 0 < s.g) (hg' : s.g < 2 ^ 64):
    s.take 254 = { s with t := 64 * s.t, y := s.y + 1, g := s.g - 1 } := by
  rw [take, if_pos rfl, if_pos rfl]
  have hdec : (s.g + 2 ^ 64 - 1) % 2 ^ 64 = s.g - 1 := by omega
  have hshift : (s.t <<< 6) % 2 ^ 64 = 64 * s.t := by
    rw [Nat.mod_eq_of_lt (by omega)]
    omega
  rw [hdec, hshift, UInt8.toNat_zero, Nat.or_zero]

lemma take_pad_pad (ht : s.t < 2 ^ 52) (hg : 1 < s.g) (hg' : s.g < 2 ^ 64) :
    (s.take 254).take 254 = { s with t := 4096 * s.t, y := s.y + 2, g := s.g - 2 } := by
  rw [take_pad (s := s) (by omega) (by omega) hg', take_pad (by change 64 * s.t < 2 ^ 58; omega)
    (by change 0 < s.g - 1; omega) (by change s.g - 1 < 2 ^ 64; omega)]
  simp [Nat.sub_sub, ← Nat.mul_assoc]

structure Wrote (s : Decoder) (w rest : List UInt8) : Prop where
  z_eq : s.z = w.length
  pOut_eq : s.pOut = w ++ rest

variable {w rest : List UInt8} {c : UInt8}

lemma put_wrote {v : ℕ} (h : s.Wrote w (c :: rest)) :
    Returns (s.put v) fun s' => s'.Wrote (w ++ [UInt8.ofNat v]) rest ∧ s'.g = s.g := by
  have hroom : s.z < s.pOut.length := by
    rw [h.z_eq, h.pOut_eq]
    simp
  rw [put, if_pos hroom, returns_some]
  refine ⟨⟨?_, ?_⟩, rfl⟩
  · simp [h.z_eq]
  · simp [h.z_eq, h.pOut_eq]

lemma putAll_wrote {vs : List ℕ} {olds : List UInt8} (h : s.Wrote w (olds ++ rest)) (hlen : olds.length = vs.length) :
    Returns (putAll vs s) fun s' => s'.Wrote (w ++ vs.map UInt8.ofNat) rest ∧ s'.g = s.g := by
  induction vs generalizing s w olds with
  | nil =>
    rw [List.length_nil, List.length_eq_zero_iff] at hlen
    subst hlen
    simpa [putAll] using h
  | cons v vs ih =>
    cases olds with
    | nil => simp at hlen
    | cons old olds =>
      refine (put_wrote h).bind ?_
      rintro s' ⟨hw, hg⟩
      refine (ih hw (by simpa using hlen)).mono ?_
      rintro s'' ⟨hw', hg'⟩
      exact ⟨by simpa using hw', hg'.trans hg⟩

lemma flush_wrote {olds : List UInt8} (h : s.Wrote w (olds ++ rest)) (hsize : olds.length = size s.g) :
    Returns s.flush fun s' => s'.Wrote (w ++ ((bytes s.t).take (size s.g)).map UInt8.ofNat) rest ∧
      s'.t = 0 ∧ s'.y = 0 ∧ s'.g = s.g := by
  rw [flush_eq]
  have hlen : olds.length = ((bytes s.t).take (size s.g)).length := by
    rw [List.length_take, hsize, bytes]
    simp [size_le]
  refine (putAll_wrote h hlen).map ?_
  rintro s' ⟨⟨hz, hout⟩, hg⟩
  exact ⟨⟨hz, hout⟩, rfl, rfl, hg⟩

end Decoder


section Bits

variable (a b c : UInt8)

lemma sextet_first : a.toNat >>> 2 = a.toNat / 4 := Nat.shiftRight_eq_div_pow _ 2

lemma sextet_second : ((a.toNat &&& 3) <<< 4) + (b.toNat >>> 4) = a.toNat % 4 * 16 + b.toNat / 16 := by
  rw [Nat.and_two_pow_sub_one_eq_mod _ 2, Nat.shiftLeft_eq, Nat.shiftRight_eq_div_pow]

lemma sextet_third : ((b.toNat &&& 15) <<< 2) + (c.toNat >>> 6) = b.toNat % 16 * 4 + c.toNat / 64 := by
  rw [Nat.and_two_pow_sub_one_eq_mod _ 4, Nat.shiftLeft_eq, Nat.shiftRight_eq_div_pow]

lemma sextet_fourth : c.toNat &&& 63 = c.toNat % 64 := Nat.and_two_pow_sub_one_eq_mod _ 6

variable {a b c} {t : ℕ}

lemma byte_high (h : t = 65536 * a.toNat + 256 * b.toNat + c.toNat) : UInt8.ofNat ((t >>> 16) &&& 255) = a := by
  have hb := b.toNat_lt
  have hc := c.toNat_lt
  have ha := a.toNat_lt
  rw [Nat.and_two_pow_sub_one_eq_mod _ 8, Nat.shiftRight_eq_div_pow, show t / 2 ^ 16 % 2 ^ 8 = a.toNat by omega,
    UInt8.ofNat_toNat]

lemma byte_middle (h : t = 65536 * a.toNat + 256 * b.toNat + c.toNat) : UInt8.ofNat ((t >>> 8) &&& 255) = b := by
  have hb := b.toNat_lt
  have hc := c.toNat_lt
  rw [Nat.and_two_pow_sub_one_eq_mod _ 8, Nat.shiftRight_eq_div_pow, show t / 2 ^ 8 % 2 ^ 8 = b.toNat by omega,
    UInt8.ofNat_toNat]

lemma byte_low (h : t = 65536 * a.toNat + 256 * b.toNat + c.toNat) : UInt8.ofNat (t &&& 255) = c := by
  have hc := c.toNat_lt
  rw [Nat.and_two_pow_sub_one_eq_mod _ 8, show t % 2 ^ 8 = c.toNat by omega, UInt8.ofNat_toNat]

end Bits

section Group

variable {b c b₁ b₂ b₃ b₄ c₁ c₂ c₃ c₄ : UInt8} {r : List UInt8}

lemma decodeLoop_char (hc : lookup b = some c) (hne : c ≠ 255) (hy : s.y < 3) :
    decodeLoop (b :: r) s = decodeLoop r (s.take c) := by
  rw [decodeLoop, hc, Option.bind_eq_bind, Option.bind_some, if_neg hne]
  exact if_neg (by change s.y + 1 ≠ 4; omega)

lemma decodeLoop_last (hc : lookup b = some c) (hne : c ≠ 255) (hy : s.y = 3)
    (hroom : s.z + (s.take c).g ≤ s.pOut.length) :
    decodeLoop (b :: r) s = (s.take c).flush >>= decodeLoop r := by
  have hfull : (s.take c).y = 4 := by
    rw [Decoder.take, hy]
  have hcheck : ¬s.pOut.length < (s.z + (s.take c).g) % 2 ^ 64 := by
    have hmod := Nat.mod_le (s.z + (s.take c).g) (2 ^ 64)
    omega
  rw [decodeLoop, hc, Option.bind_eq_bind, Option.bind_some, if_neg hne]
  exact (if_pos hfull).trans (if_neg hcheck)

lemma decodeLoop_group {q : Decoder} (h₁ : lookup b₁ = some c₁ ∧ c₁ ≠ 255) (h₂ : lookup b₂ = some c₂ ∧ c₂ ≠ 255)
    (h₃ : lookup b₃ = some c₃ ∧ c₃ ≠ 255) (h₄ : lookup b₄ = some c₄ ∧ c₄ ≠ 255) (hy : s.y = 0)
    (hq : (((s.take c₁).take c₂).take c₃).take c₄ = q) (hroom : q.z + q.g ≤ q.pOut.length) :
    decodeLoop (b₁ :: b₂ :: b₃ :: b₄ :: r) s = q.flush >>= decodeLoop r := by
  rw [decodeLoop_char h₁.1 h₁.2 (by simp [hy]), decodeLoop_char h₂.1 h₂.2 (by simp [hy]),
    decodeLoop_char h₃.1 h₃.2 (by simp [hy]), decodeLoop_last h₄.1 h₄.2 (by simp [hy]), hq]
  rw [← hq] at hroom
  simpa using hroom

end Group

structure Decoder.Between (s : Decoder) (w rest : List UInt8) : Prop extends s.Wrote w rest where
  t_eq : s.t = 0
  y_eq : s.y = 0
  g_eq : s.g = 3

variable {a b c : UInt8} {w olds rest r : List UInt8}

lemma sextet {i : ℕ} (hi : i < 64) : lookup (code i) = some (UInt8.ofNat i) ∧ UInt8.ofNat i ≠ 255 := by
  refine ⟨lookup_code i hi, fun h => ?_⟩
  have hnat := congrArg UInt8.toNat h
  rw [sextet_toNat i hi] at hnat
  exact absurd hnat (by change i ≠ 255; omega)

lemma pad : lookup 61 = some 254 ∧ (254 : UInt8) ≠ 255 := ⟨lookup_pad, by decide⟩

lemma decodeLoop_writes {b₁ b₂ b₃ b₄ c₁ c₂ c₃ c₄ : UInt8} {olds : List UInt8} {t g : ℕ}
    (h₁ : lookup b₁ = some c₁ ∧ c₁ ≠ 255) (h₂ : lookup b₂ = some c₂ ∧ c₂ ≠ 255) (h₃ : lookup b₃ = some c₃ ∧ c₃ ≠ 255)
    (h₄ : lookup b₄ = some c₄ ∧ c₄ ≠ 255) (h : s.Between w (olds ++ rest))
    (hq : (((s.take c₁).take c₂).take c₃).take c₄ = { s with t, y := 4, g }) (hg : Decoder.size g = g)
    (holds : olds.length = g) :
    ∃ s' : Decoder, s'.Wrote (w ++ ((Decoder.bytes t).take g).map UInt8.ofNat) rest ∧ s'.t = 0 ∧ s'.y = 0 ∧ s'.g = g ∧
      decodeLoop (b₁ :: b₂ :: b₃ :: b₄ :: r) s = decodeLoop r s' := by
  have hroom : s.z + g ≤ s.pOut.length := by
    rw [h.z_eq, h.pOut_eq, ← holds, List.length_append, List.length_append]
    omega
  obtain ⟨s', hs', hw', ht', hy', hg'⟩ := Decoder.flush_wrote (s := { s with t, y := 4, g }) ⟨h.z_eq, h.pOut_eq⟩
    (holds.trans hg.symm)
  rw [hg] at hw'
  refine ⟨s', hw', ht', hy', hg', ?_⟩
  rw [decodeLoop_group h₁ h₂ h₃ h₄ h.y_eq hq hroom, hs', Option.bind_eq_bind, Option.bind_some]

lemma bytes_ofNat (a b c : UInt8) :
    (Decoder.bytes (65536 * a.toNat + 256 * b.toNat + c.toNat)).map UInt8.ofNat = [a, b, c] := by
  rw [Decoder.bytes, List.map_cons, List.map_cons, List.map_cons, byte_high rfl, byte_middle rfl, byte_low rfl, List.map_nil]

lemma decodeLoop_quad (h : s.Between w (olds ++ rest)) (holds : olds.length = 3) :
    ∃ s' : Decoder, s'.Between (w ++ [a, b, c]) rest ∧ decodeLoop
      (code (a.toNat >>> 2) :: code (((a.toNat &&& 3) <<< 4) + (b.toNat >>> 4)) ::
        code (((b.toNat &&& 15) <<< 2) + (c.toNat >>> 6)) :: code (c.toNat &&& 63) :: r) s = decodeLoop r s' := by
  have ha := a.toNat_lt
  have hb := b.toNat_lt
  have hc := c.toNat_lt
  have hi₁ : a.toNat / 4 < 64 := by omega
  have hi₂ : a.toNat % 4 * 16 + b.toNat / 16 < 64 := by omega
  have hi₃ : b.toNat % 16 * 4 + c.toNat / 64 < 64 := by omega
  have hi₄ : c.toNat % 64 < 64 := by omega
  have htaken : (((s.take (UInt8.ofNat (a.toNat / 4))).take (UInt8.ofNat (a.toNat % 4 * 16 + b.toNat / 16))).take
      (UInt8.ofNat (b.toNat % 16 * 4 + c.toNat / 64))).take (UInt8.ofNat (c.toNat % 64)) =
      { s with t := 65536 * a.toNat + 256 * b.toNat + c.toNat, y := 4, g := 3 } := by
    rw [Decoder.take_of_lt hi₁ (by rw [h.t_eq]; omega), Decoder.take_of_lt hi₂ (by simp [h.t_eq]; omega),
      Decoder.take_of_lt hi₃ (by simp [h.t_eq]; omega), Decoder.take_of_lt hi₄ (by simp [h.t_eq]; omega)]
    simp only [h.t_eq, h.y_eq, h.g_eq, Decoder.mk.injEq, and_true]
    omega
  obtain ⟨s', hw, ht, hy, hg, hrun⟩ := decodeLoop_writes (r := r) (sextet hi₁) (sextet hi₂) (sextet hi₃) (sextet hi₄) h
    htaken rfl holds
  rw [List.map_take, bytes_ofNat] at hw
  refine ⟨s', ⟨hw, ht, hy, hg⟩, ?_⟩
  rw [sextet_first, sextet_second, sextet_third, sextet_fourth, hrun]

lemma decodeLoop_two (h : s.Between w (olds ++ rest)) (holds : olds.length = 2) :
    ∃ s' : Decoder, s'.Wrote (w ++ [a, b]) rest ∧ decodeLoop [code (a.toNat >>> 2),
      code (((a.toNat &&& 3) <<< 4) + (b.toNat >>> 4)), code ((b.toNat &&& 15) <<< 2), 61] s = some (true, s') := by
  have ha := a.toNat_lt
  have hb := b.toNat_lt
  have hi₁ : a.toNat / 4 < 64 := by omega
  have hi₂ : a.toNat % 4 * 16 + b.toNat / 16 < 64 := by omega
  have hi₃ : b.toNat % 16 * 4 + (0 : UInt8).toNat / 64 < 64 := by rw [UInt8.toNat_zero]; omega
  have htaken : (((s.take (UInt8.ofNat (a.toNat / 4))).take (UInt8.ofNat (a.toNat % 4 * 16 + b.toNat / 16))).take
      (UInt8.ofNat (b.toNat % 16 * 4 + (0 : UInt8).toNat / 64))).take 254 =
      { s with t := 65536 * a.toNat + 256 * b.toNat + (0 : UInt8).toNat, y := 4, g := 2 } := by
    rw [Decoder.take_of_lt hi₁ (by rw [h.t_eq]; omega), Decoder.take_of_lt hi₂ (by simp [h.t_eq]; omega),
      Decoder.take_of_lt hi₃ (by simp [h.t_eq]; omega), Decoder.take_pad (by simp [h.t_eq]; omega) (by simp [h.g_eq])
        (by simp [h.g_eq])]
    simp only [h.t_eq, h.y_eq, h.g_eq, Decoder.mk.injEq, and_true, UInt8.toNat_zero]
    omega
  obtain ⟨s', hw, -, -, -, hrun⟩ := decodeLoop_writes (r := []) (sextet hi₁) (sextet hi₂) (sextet hi₃) pad h htaken rfl holds
  rw [List.map_take, bytes_ofNat] at hw
  refine ⟨s', hw, ?_⟩
  have hthird := sextet_third b 0
  rw [UInt8.toNat_zero, Nat.zero_shiftRight, Nat.add_zero] at hthird
  rw [sextet_first, sextet_second, hthird]
  exact hrun

lemma decodeLoop_one (h : s.Between w (olds ++ rest)) (holds : olds.length = 1) :
    ∃ s' : Decoder, s'.Wrote (w ++ [a]) rest ∧
      decodeLoop [code (a.toNat >>> 2), code ((a.toNat &&& 3) <<< 4), 61, 61] s = some (true, s') := by
  have ha := a.toNat_lt
  have hi₁ : a.toNat / 4 < 64 := by omega
  have hi₂ : a.toNat % 4 * 16 + (0 : UInt8).toNat / 16 < 64 := by rw [UInt8.toNat_zero]; omega
  have htaken : (((s.take (UInt8.ofNat (a.toNat / 4))).take (UInt8.ofNat (a.toNat % 4 * 16 + (0 : UInt8).toNat / 16))).take
      254).take 254 = { s with t := 65536 * a.toNat + 256 * (0 : UInt8).toNat + (0 : UInt8).toNat, y := 4, g := 1 } := by
    rw [Decoder.take_of_lt hi₁ (by rw [h.t_eq]; omega), Decoder.take_of_lt hi₂ (by simp [h.t_eq]; omega),
      Decoder.take_pad_pad (by simp [h.t_eq]; omega) (by simp [h.g_eq]) (by simp [h.g_eq])]
    simp only [h.t_eq, h.y_eq, h.g_eq, Decoder.mk.injEq, and_true, UInt8.toNat_zero]
    omega
  obtain ⟨s', hw, -, -, -, hrun⟩ := decodeLoop_writes (r := []) (sextet hi₁) (sextet hi₂) pad pad h htaken rfl holds
  rw [List.map_take, bytes_ofNat] at hw
  refine ⟨s', hw, ?_⟩
  have hsecond := sextet_second a 0
  rw [UInt8.toNat_zero, Nat.zero_shiftRight, Nat.add_zero] at hsecond
  rw [sextet_first, hsecond]
  exact hrun

lemma decodeLoop_text {x : List UInt8} (h : s.Between w (olds ++ rest)) (holds : olds.length = x.length) :
    ∃ s' : Decoder, s'.Wrote (w ++ x) rest ∧ decodeLoop (text x) s = some (true, s') := by
  induction x using text.induct generalizing s w olds with
  | case1 =>
    rw [List.length_nil, List.length_eq_zero_iff] at holds
    subst holds
    refine ⟨s, by simpa using h.toWrote, ?_⟩
    rw [text, decodeLoop]
  | case2 a =>
    rw [text]
    exact decodeLoop_one h holds
  | case3 a b =>
    rw [text]
    exact decodeLoop_two h holds
  | case4 a b c x ih =>
    have hthree : s.Between w (olds.take 3 ++ (olds.drop 3 ++ rest)) := by
      rwa [← List.append_assoc, List.take_append_drop]
    have hlen : (olds.take 3).length = 3 := by
      rw [List.length_take, holds]
      simp
    obtain ⟨s', hs', hrun⟩ := decodeLoop_quad (a := a) (b := b) (c := c) (r := text x) hthree hlen
    obtain ⟨s'', hs'', hrun'⟩ := ih hs' (by simp [holds])
    refine ⟨s'', by simpa using hs'', ?_⟩
    rw [text]
    exact hrun.trans hrun'

lemma decode_text {x pOut : List UInt8} (h : x.length ≤ pOut.length) :
    decode (text x) pOut = some ⟨true, x ++ pOut.drop x.length, x.length⟩ := by
  have hstart : Decoder.Between ⟨0, 0, 0, 3, pOut⟩ [] (pOut.take x.length ++ pOut.drop x.length) :=
    ⟨⟨rfl, by simp⟩, rfl, rfl, rfl⟩
  obtain ⟨s', ⟨hz, hout⟩, hrun⟩ := decodeLoop_text hstart (List.length_take_of_le h)
  rw [decode, hrun, Option.bind_eq_bind, Option.bind_some]
  simp [hz, hout]

lemma encodeBuffer_some (x pOut : List UInt8) :
    encodeBuffer x (some pOut) pOut.length = some (
      if (text x).length < pOut.length then ⟨true, some (text x ++ 0 :: pOut.drop ((text x).length + 1)), (text x).length⟩
      else ⟨false, some pOut, pOut.length⟩) := by
  have hlen2 : ((x.length + 2) / 3) <<< 2 = (text x).length := by
    rw [length_text, Nat.shiftLeft_eq]
    omega
  rw [encodeBuffer, hlen2]
  by_cases hroom : (text x).length < pOut.length
  · have hstored : (encodeWith store x).run (0, pOut) = some ((), (text x).length, text x ++ pOut.drop (text x).length) := by
      rw [encodeWith_eq_forM, store_run (by omega)]
      simp
    have hend : (store 0).run ((text x).length, text x ++ pOut.drop (text x).length) =
        some ((), (text x).length + 1, text x ++ 0 :: pOut.drop ((text x).length + 1)) := by
      refine (if_pos (by simp; omega)).trans ?_
      rw [List.drop_eq_getElem_cons hroom, List.set_append_right _ _ le_rfl, Nat.sub_self, List.set_cons_zero]
    rw [if_neg (by omega), if_pos hroom]
    refine (if_neg (by omega)).trans ?_
    rw [hstored, Option.bind_eq_bind, Option.bind_some]
    exact Option.bind_eq_some_iff.mpr ⟨_, hend, rfl⟩
  · rw [if_neg hroom]
    by_cases hempty : pOut.length = 0
    · rw [if_pos hempty]
    · rw [if_neg hempty]
      exact if_pos (by omega)

theorem decode_encode_restores (x pOut : List UInt8) (uOutLen : ℕ) :
    (x.length ≤ pOut.length →
      decode (encodeString x) pOut = some ⟨true, x ++ pOut.drop x.length, x.length⟩) ∧
    encodeBuffer x (some pOut) pOut.length = some (
      if (encodeString x).length < pOut.length then
        ⟨true, some (encodeString x ++ 0 :: pOut.drop ((encodeString x).length + 1)), (encodeString x).length⟩
      else ⟨false, some pOut, pOut.length⟩) ∧
    encodeBuffer x none uOutLen = some ⟨false, none, uOutLen⟩ := by
  rw [encodeString_eq]
  exact ⟨decode_text, encodeBuffer_some x pOut, rfl⟩

theorem decode_encode_restores_two : [77, 97].length ≤ [0, 0, 9].length ∧
    decode (encodeString [77, 97]) [0, 0, 9] = some ⟨true, [77, 97] ++ [0, 0, 9].drop 2, 2⟩ :=
  ⟨by decide, (decode_encode_restores [77, 97] [0, 0, 9] 0).1 (by decide)⟩

end Xframe.Comserv.CBase64
